import TableEngine.Json.Reader

/-!
What readers make of composed tokens (`Json.Reader.Makes`): arrays and objects are taken apart into the
elements or members that they are composed of, up to the first fault. Readers thus read what writers write
(`Json.Reader.Reads`).
-/

namespace TableEngine.Json

namespace Reader

variable {α β σ : Type}

/-- The reader takes the tokens, whatever follows them, and gives the value. -/
def Reads (reader : Reader α) (tokens : List Token) (a : α) : Prop :=
  ∀ rest, reader.run (tokens ++ rest) = .ok (a, rest)

/-- What the reader makes of the tokens, whatever follows them: a value, behind which it stops, or a
    fault. -/
def Makes (reader : Reader α) (tokens : List Token) (result : Except ImportFault α) : Prop :=
  ∀ rest, reader.run (tokens ++ rest) = result.map (·, rest)

theorem Reads.makes {reader : Reader α} {tokens : List Token} {a : α}
    (hreads : reader.Reads tokens a) : reader.Makes tokens (.ok a) :=
  hreads

theorem makes_fail (fault : ImportFault) (tokens : List Token) :
    (fail fault : Reader α).Makes tokens (.error fault) :=
  fun _ => rfl

/-- What is made of the tokens of a text is made of the text. -/
theorem Makes.readText {reader : Reader α} {text : List Char} {result : Except ImportFault α}
    (hreader : reader.Makes (Lexer.readAll text) result) : reader.readText text = result := by
  have hrun := hreader []
  rw [List.append_nil] at hrun
  rw [Reader.readText, hrun]
  cases result <;> rfl

theorem Makes.bind {reader : Reader α} {next : α → Reader β} {front back : List Token}
    {result : Except ImportFault α} {results : α → Except ImportFault β}
    (hreader : reader.Makes front result) (hnext : ∀ a, (next a).Makes back (results a)) :
    (reader >>= next).Makes (front ++ back) (result >>= results) := by
  intro rest
  rw [run_bind, List.append_assoc, hreader]
  cases result with
  | error fault => rfl
  | ok a => exact hnext a rest

theorem Makes.map {reader : Reader α} {tokens : List Token} {result : Except ImportFault α}
    (hreader : reader.Makes tokens result) (f : α → β) :
    (do pure (f (← reader)) : Reader β).Makes tokens (result.map f) := by
  intro rest
  rw [run_bind, hreader]
  cases result <;> rfl

theorem reads_takeSome {meaning? : Token → Option α} {token : Token} {a : α}
    (hmeaning : meaning? token = some a) : (takeSome meaning?).Reads [token] a := by
  intro rest
  simp only [takeSome, List.cons_append, List.nil_append, hmeaning]

theorem reads_text (s : String) : text.Reads [.text s] s :=
  reads_takeSome rfl

theorem run_accept_of_ne {token first : Token} (hfirst : first ≠ token) (rest : List Token) :
    (accept token).run (first :: rest) = .ok (false, first :: rest) := by
  simp only [accept, run_bind, peek, List.head?_cons, Option.some.injEq, hfirst, if_false, run_pure]

theorem run_accept_of_eq (token : Token) (rest : List Token) :
    (accept token).run (token :: rest) = .ok (true, rest) := by
  simp [accept, peek, expect, takeSome]

/-! Arrays. -/

theorem runElements_last {element : Reader α} {tokens : List Token} {result : Except ImportFault α}
    (helement : element.Makes tokens result) (rest : List Token) :
    runElements element (tokens ++ .closeArray :: rest) = result.map fun a => ([a], rest) := by
  have hrun := helement (.closeArray :: rest)
  rw [runElements]
  cases result <;> split <;> simp_all [Except.map]

theorem runElements_more {element : Reader α} {tokens : List Token} {result : Except ImportFault α}
    (helement : element.Makes tokens result) (behind : List Token) :
    runElements element (tokens ++ .comma :: behind) =
      result >>= fun a => prepend a (runElements element behind) := by
  have hrun := helement (.comma :: behind)
  rw [runElements]
  cases result <;> split <;> simp_all [Except.map, bind, Except.bind]

/-- The elements are read one after the other up to the first fault. -/
theorem runElements_separated {element : Reader α} {write : β → List Token}
    {result : β → Except ImportFault α} {items : List β} (hitems : items ≠ [])
    (hmakes : ∀ item ∈ items, element.Makes (write item) (result item)) (rest : List Token) :
    runElements element (separated (items.map write) ++ .closeArray :: rest) =
      (items.mapM result).map (·, rest) := by
  induction items with
  | nil => exact absurd rfl hitems
  | cons item items ih =>
    obtain ⟨hitem, hothers⟩ := List.forall_mem_cons.1 hmakes
    rw [List.mapM_cons]
    cases items with
    | nil =>
      rw [List.map_singleton, separated, runElements_last hitem]
      cases result item <;> rfl
    | cons next items =>
      have hsplit : separated ((item :: next :: items).map write) ++ .closeArray :: rest =
          write item ++ .comma :: (separated ((next :: items).map write) ++ .closeArray :: rest) := by
        simp [separated]
      rw [hsplit, runElements_more hitem, ih (List.cons_ne_nil _ _) hothers]
      cases result item with
      | error fault => rfl
      | ok a => cases (next :: items).mapM result <;> rfl

theorem run_array_nil (element : Reader α) (rest : List Token) :
    (array element).run (.openArray :: .closeArray :: rest) = .ok ([], rest) := by
  simp [array, expect, takeSome, run_accept_of_eq]

theorem run_array_of_ne (element : Reader α) {first : Token} (hfirst : first ≠ .closeArray)
    (rest : List Token) :
    (array element).run (.openArray :: first :: rest) = runElements element (first :: rest) := by
  simp [array, expect, takeSome, run_accept_of_ne hfirst]

theorem mapM_ok (f : β → α) (items : List β) :
    items.mapM (fun item => (.ok (f item) : Except ImportFault α)) = .ok (items.map f) :=
  List.mapM_pure

/-- An array is taken apart into its elements, if none of them is written like the end of one. -/
theorem makes_array {element : Reader α} {write : β → List Token}
    {result : β → Except ImportFault α} {items : List β}
    (hmakes : ∀ item ∈ items, element.Makes (write item) (result item))
    (hstart : ∀ item ∈ items, ∃ first rest, write item = first :: rest ∧ first ≠ .closeArray) :
    (array element).Makes (Json.array (items.map write)) (items.mapM result) := by
  intro rest
  have hlayout : Json.array (items.map write) ++ rest =
      .openArray :: (separated (items.map write) ++ .closeArray :: rest) := by
    simp [Json.array]
  rw [hlayout]
  cases items with
  | nil => exact run_array_nil element rest
  | cons item items =>
    have helements := runElements_separated (List.cons_ne_nil item items) hmakes rest
    obtain ⟨first, others, hitem, hfirst⟩ := hstart item List.mem_cons_self
    have hhead : ∃ behind, separated ((item :: items).map write) ++ .closeArray :: rest =
        first :: behind := by
      cases items with
      | nil => simp [separated, hitem]
      | cons next items => simp [separated, hitem]
    obtain ⟨behind, hbehind⟩ := hhead
    rw [hbehind] at helements ⊢
    rw [run_array_of_ne element hfirst, helements]

/-- What an array is written as is read as the array, if no element is written like the end of one. -/
theorem reads_array {element : Reader α} {write : α → List Token} {items : List α}
    (hread : ∀ item ∈ items, element.Reads (write item) item)
    (hstart : ∀ item ∈ items, ∃ first rest, write item = first :: rest ∧ first ≠ .closeArray) :
    (array element).Reads (Json.array (items.map write)) items := by
  have hmakes := makes_array (fun item hitem => (hread item hitem).makes) hstart
  rwa [mapM_ok, List.map_id'] at hmakes

/-! Objects. -/

section

variable {κ : Type} {name? : Token → Option κ} {member : σ → κ → Reader σ}

theorem runMembers_last {state : σ} {key : Token} {name : κ} {value : List Token}
    {result : Except ImportFault σ} (hname : name? key = some name)
    (hmember : (member state name).Makes value result) (rest : List Token) :
    runMembers name? member state (key :: .colon :: (value ++ .closeObject :: rest)) =
      result.map (·, rest) := by
  have hrun := hmember (.closeObject :: rest)
  rw [runMembers, hname]
  dsimp only
  cases result <;> split <;> simp_all [Except.map]

theorem runMembers_more {state : σ} {key : Token} {name : κ} {value : List Token}
    {result : Except ImportFault σ} (hname : name? key = some name)
    (hmember : (member state name).Makes value result) (behind : List Token) :
    runMembers name? member state (key :: .colon :: (value ++ .comma :: behind)) =
      result >>= fun next => runMembers name? member next behind := by
  have hrun := hmember (.comma :: behind)
  rw [runMembers, hname]
  dsimp only
  cases result <;> split <;> simp_all [Except.map, bind, Except.bind]

theorem run_objectBy_nil (name? : Token → Option κ) (member : σ → κ → Reader σ) (state : σ)
    (rest : List Token) :
    (objectBy name? member state).run (.openObject :: .closeObject :: rest) = .ok (state, rest) := by
  simp [objectBy, expect, takeSome, run_accept_of_eq]

theorem run_objectBy_of_ne (name? : Token → Option κ) (member : σ → κ → Reader σ) (state : σ)
    {first : Token} (hfirst : first ≠ .closeObject) (rest : List Token) :
    (objectBy name? member state).run (.openObject :: first :: rest) =
      runMembers name? member state (first :: rest) := by
  simp [objectBy, expect, takeSome, run_accept_of_ne hfirst]

variable {key : String → κ} {write : β → String × List Token} {step : σ → β → Except ImportFault σ}

/-- The members are read one after the other up to the first fault. -/
theorem runMembers_separated (hname : ∀ name, name? (.text name) = some (key name)) {items : List β}
    (hitems : items ≠ [])
    (hmakes : ∀ state, ∀ item ∈ items,
      (member state (key (write item).1)).Makes (write item).2 (step state item))
    (state : σ) (rest : List Token) :
    runMembers name? member state
        (separated ((items.map write).map fun (name, value) => .text name :: .colon :: value) ++
          .closeObject :: rest) = (items.foldlM step state).map (·, rest) := by
  induction items generalizing state with
  | nil => exact absurd rfl hitems
  | cons item items ih =>
    have hitem := hmakes state item List.mem_cons_self
    have hothers := fun state other hother => hmakes state other (List.mem_cons_of_mem item hother)
    rw [List.foldlM_cons]
    cases items with
    | nil =>
      refine (runMembers_last (hname _) hitem rest).trans ?_
      cases step state item <;> rfl
    | cons second items =>
      have hsplit : separated (((item :: second :: items).map write).map
            fun (name, value) => .text name :: .colon :: value) ++ .closeObject :: rest =
          .text (write item).1 :: .colon :: ((write item).2 ++ .comma ::
            (separated (((second :: items).map write).map
              fun (name, value) => .text name :: .colon :: value) ++ .closeObject :: rest)) := by
        simp [separated]
      rw [hsplit, runMembers_more (hname _) hitem]
      cases step state item with
      | error fault => rfl
      | ok next => exact ih (List.cons_ne_nil _ _) hothers next

/-- An object is taken apart into its members. -/
theorem makes_objectBy (hname : ∀ name, name? (.text name) = some (key name)) {items : List β}
    (hmakes : ∀ state, ∀ item ∈ items,
      (member state (key (write item).1)).Makes (write item).2 (step state item)) (state : σ) :
    (objectBy name? member state).Makes (Json.object (items.map write))
      (items.foldlM step state) := by
  intro rest
  have hlayout : Json.object (items.map write) ++ rest =
      .openObject :: (separated ((items.map write).map fun (name, value) =>
        .text name :: .colon :: value) ++ .closeObject :: rest) := by
    simp [Json.object]
  rw [hlayout]
  cases items with
  | nil => exact run_objectBy_nil name? member state rest
  | cons item items =>
    have hmembers := runMembers_separated hname (List.cons_ne_nil item items) hmakes state rest
    have hhead : ∃ behind, separated (((item :: items).map write).map fun (name, value) =>
        .text name :: .colon :: value) ++ .closeObject :: rest = .text (write item).1 :: behind := by
      cases items with
      | nil => simp [separated]
      | cons second items => simp [separated]
    obtain ⟨behind, hbehind⟩ := hhead
    rw [hbehind] at hmembers ⊢
    rw [run_objectBy_of_ne name? member state (by simp), hmembers]

end

theorem makes_object {member : σ → String → Reader σ} {write : β → String × List Token}
    {step : σ → β → Except ImportFault σ} {items : List β}
    (hmakes : ∀ state, ∀ item ∈ items,
      (member state (write item).1).Makes (write item).2 (step state item)) (state : σ) :
    (object member state).Makes (Json.object (items.map write)) (items.foldlM step state) := by
  have hname : ∀ name, text? (.text name) = some (id name) := fun _ => rfl
  exact makes_objectBy hname hmakes state

/-- A name with what is made of its value. -/
def named (result : β → Except ImportFault α) (entry : String × β) : Except ImportFault (String × α) :=
  (result entry.2).map fun a => (entry.1, a)

/-- Entries that are written to a map as they are read are those that are read up to the first fault. -/
theorem foldlM_insert (result : β → Except ImportFault α) (entries : List (String × β))
    (m : OrderedMap α) :
    entries.foldlM (fun m entry => (result entry.2).map (m.insert entry.1)) m =
      (entries.mapM (named result)).map (List.foldl (fun m (name, a) => m.insert name a) m) := by
  induction entries generalizing m with
  | nil => rfl
  | cons entry entries ih =>
    rw [List.foldlM_cons, List.mapM_cons, named]
    cases result entry.2 with
    | error fault => rfl
    | ok a =>
      change entries.foldlM _ (m.insert entry.1 a) = _
      rw [ih]
      cases entries.mapM (named result) <;> rfl

theorem makes_map {value : Reader α} (write : β → List Token) (result : β → Except ImportFault α)
    {entries : List (String × β)}
    (hmakes : ∀ entry ∈ entries, value.Makes (write entry.2) (result entry.2)) :
    (map value).Makes (Json.object (entries.map fun (name, b) => (name, write b)))
      ((entries.mapM (named result)).map OrderedMap.ofList) := by
  let member (m : OrderedMap α) (name : String) : Reader (OrderedMap α) := do
    pure (m.insert name (← value))
  let written (entry : String × β) : String × List Token := (entry.1, write entry.2)
  let step (m : OrderedMap α) (entry : String × β) : Except ImportFault (OrderedMap α) :=
    (result entry.2).map (m.insert entry.1)
  have hmember : ∀ m, ∀ entry ∈ entries,
      (member m (written entry).1).Makes (written entry).2 (step m entry) :=
    fun m entry hentry => (hmakes entry hentry).map (m.insert entry.1)
  have hsteps : entries.foldlM step .empty =
      (entries.mapM (named result)).map OrderedMap.ofList := foldlM_insert result entries .empty
  rw [← hsteps]
  exact makes_object hmember .empty

/-- What a map is written as is read as the map, with what the reader makes of the values. -/
theorem reads_map {value : Reader α} (write : β → List Token) (f : β → α) {m : OrderedMap β}
    (hread : ∀ entry ∈ m.entries, value.Reads (write entry.2) (f entry.2)) :
    (map value).Reads (Json.object (m.entries.map fun (name, b) => (name, write b)))
      (m.mapValues fun _ => f) := by
  let result : β → Except ImportFault α := fun b => .ok (f b)
  have hvalue : ∀ entry ∈ m.entries, value.Makes (write entry.2) (result entry.2) :=
    fun entry hentry => (hread entry hentry).makes
  have hentries : m.entries.mapM (named result) = .ok (m.mapValues fun _ => f).entries :=
    mapM_ok _ _
  have hmakes := makes_map write result hvalue
  rw [hentries] at hmakes
  rw [← (m.mapValues fun _ => f).ofList_entries]
  exact hmakes

end Reader

/-! Values of any shape. -/

/-- The tokens are a value of any shape. -/
inductive IsValue : List Token → Prop where
  | scalar {token : Token} (hscalar : Reader.anyScalar? token = some ()) : IsValue [token]
  | array {values : List (List Token)} (hvalues : ∀ value ∈ values, IsValue value) :
      IsValue (Json.array values)
  | object {members : List (String × List Token)} (hmembers : ∀ member ∈ members, IsValue member.2) :
      IsValue (Json.object members)

theorem length_le_of_mem_separated {values : List (List Token)} {value : List Token}
    (hvalue : value ∈ values) : value.length ≤ (separated values).length := by
  induction values with
  | nil => cases hvalue
  | cons first values ih =>
    cases values with
    | nil =>
      obtain rfl := List.mem_singleton.1 hvalue
      exact Nat.le_refl _
    | cons second values =>
      have hlength : (separated (first :: second :: values)).length =
          first.length + ((separated (second :: values)).length + 1) := by
        simp [separated]
      rcases List.mem_cons.1 hvalue with rfl | hother
      · omega
      · have hle := ih hother
        omega

theorem IsValue.exists_head {tokens : List Token} (hvalue : IsValue tokens) :
    ∃ first rest, tokens = first :: rest ∧ first ≠ .closeArray := by
  cases hvalue with
  | scalar hscalar => exact ⟨_, _, rfl, by rintro rfl; cases hscalar⟩
  | array => exact ⟨_, _, rfl, nofun⟩
  | object => exact ⟨_, _, rfl, nofun⟩

namespace Reader

theorem reads_skipNested {tokens : List Token} (hvalue : IsValue tokens) {depth : Nat}
    (hdepth : tokens.length ≤ depth) : (skipNested depth).Reads tokens () := by
  induction hvalue generalizing depth with
  | @scalar token hscalar =>
    cases depth with
    | zero => exact reads_takeSome hscalar
    | succ depth =>
      intro rest
      rw [← reads_takeSome hscalar rest]
      cases token <;> first | rfl | cases hscalar
  | @array values hvalues ih =>
    cases depth with
    | zero => cases hdepth
    | succ depth =>
      simp only [Json.array, List.length_append, List.length_cons, List.length_nil] at hdepth
      have hmakes : ∀ value ∈ values, (skipNested depth).Makes (id value) (.ok ()) := by
        intro value hvalue
        have hle := length_le_of_mem_separated hvalue
        exact (ih value hvalue (by omega)).makes
      have harray := makes_array hmakes fun value hvalue => (hvalues value hvalue).exists_head
      rw [List.map_id, mapM_ok] at harray
      exact harray.map fun _ => ()
  | @object members hmembers ih =>
    cases depth with
    | zero => cases hdepth
    | succ depth =>
      simp only [Json.object, List.length_append, List.length_cons, List.length_nil] at hdepth
      let forget (_ : Unit) (_ : Unit) : Reader Unit := skipNested depth
      have hname : ∀ name, anyName? (.text name) = some ((fun _ : String => ()) name) := fun _ => rfl
      have hmakes : ∀ state, ∀ member ∈ members,
          (forget state ()).Makes (id member).2 (pure state) := by
        intro state member hmember
        have hwritten : Token.text member.1 :: .colon :: member.2 ∈
            members.map fun (name, value) => .text name :: .colon :: value :=
          List.mem_map.2 ⟨member, hmember, rfl⟩
        have hle := length_le_of_mem_separated hwritten
        simp only [List.length_cons] at hle
        exact (ih member hmember (by omega)).makes
      have hobject := makes_objectBy hname hmakes ()
      rw [List.map_id, List.foldlM_pure] at hobject
      exact hobject

theorem reads_skip {tokens : List Token} (hvalue : IsValue tokens) : skip.Reads tokens () := by
  intro rest
  have hdepth : tokens.length ≤ (tokens ++ rest).length := by simp
  exact reads_skipNested hvalue hdepth rest

end Reader

end TableEngine.Json
