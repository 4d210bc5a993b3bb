import TableEngine.Proofs.Effects
import TableEngine.Proofs.Printing
import TableEngine.Shell

/-!
Which databases a statement can name. A word that is no keyword is read as itself, unless it consists
of digits alone: such a word is read as a number, and the name is that number as it is written
(`readName?`). Zeros in front are thus lost, and a number that is too large is no name at all, although
databases may bear such names. All other names are addressed as they are (`database_addressed_iff`).
-/

namespace TableEngine

open Grammar Lexer

/-- The name that a word of a statement is read as, if it can be read. -/
def readName? (word : String) : Option String :=
  if word.toList.all Char.isDigit then
    if (Text.digitsValue word.toList : Int) ≤ Int64.maxValue.toInt then
      some (String.ofList (Text.natDigits (Text.digitsValue word.toList)))
    else none
  else some word

section

variable {name : String} (hvalid : isValidName name = true)
  (hkeyword : ∀ keyword ∈ Keyword.all, name.toList.map Char.toUpper ≠ keyword.text.toList)

include hvalid

theorem toList_ne_nil_of_isValidName : name.toList ≠ [] := by
  rw [isValidName, Bool.and_eq_true] at hvalid
  simpa using hvalid.1

theorem isWordChar_of_isValidName : ∀ c ∈ name.toList, isWordChar c = true := by
  rw [isValidName, Bool.and_eq_true] at hvalid
  exact List.all_eq_true.1 hvalid.2

theorem trim_use : Text.trim ("USE " ++ name).toList = "USE".toList ++ ' ' :: name.toList := by
  have htext : ("USE " ++ name).toList = "USE".toList ++ ' ' :: name.toList := by
    rw [String.toList_append]
    rfl
  rw [htext]
  apply Text.trim_of_ends
  · intro c hc
    obtain rfl := Option.some.inj hc
    rfl
  · intro c hc
    have hne := toList_ne_nil_of_isValidName hvalid
    rw [List.getLast?_append_of_ne_nil _ (List.cons_ne_nil _ _), List.getLast?_cons_of_ne_nil hne] at hc
    exact isBlank_of_isWordChar (isWordChar_of_isValidName hvalid c (List.mem_of_getLast? hc))

include hkeyword

/-- Only a word of digits is read as another name, or as none. -/
theorem isName_iff_readName? : IsName name ↔ readName? name = some name := by
  have hne : name ≠ "" := by
    rintro rfl
    exact toList_ne_nil_of_isValidName hvalid rfl
  unfold readName?
  constructor
  · intro hname
    split
    · next hdigits =>
      obtain ⟨hcanonical, hbound⟩ := hname.decimal (List.all_eq_true.1 hdigits)
      rw [if_pos hbound, hcanonical, String.ofList_toList]
    · rfl
  · intro hread
    refine ⟨hne, isWordChar_of_isValidName hvalid, hkeyword, ?_⟩
    intro hdigits
    rw [if_pos (List.all_eq_true.2 hdigits)] at hread
    split at hread
    · next hbound =>
      have hsame := congrArg String.toList (Option.some.inj hread)
      rw [String.toList_ofList] at hsame
      exact ⟨hsame, hbound⟩
    · cases hread

theorem writes_readName? {other : String} (hread : readName? name = some other) :
    Writes SpellsName name.toList other := by
  unfold readName? at hread
  split at hread
  · next hdigits =>
    split at hread
    · next hbound =>
      obtain ⟨n, hn, hvalue⟩ := exists_toInt_eq hbound
      have hnat : n.toInt.toNat = Text.digitsValue name.toList := by omega
      obtain rfl := Option.some.inj hread
      refine ⟨[.integer n], ?_, hnat ▸ .number hn⟩
      exact lexes_digits (toList_ne_nil_of_isValidName hvalid) (List.all_eq_true.1 hdigits) hvalue
    · cases hread
  · next hdigits =>
    obtain rfl := Option.some.inj hread
    exact writes_name ((isName_iff_readName? hvalid hkeyword).2 (if_neg hdigits))

omit hkeyword

theorem parse_use_of_writes {other : String} (hwrites : Writes SpellsName name.toList other) :
    Statement.parse ("USE " ++ name) = .ok (.useDatabase other) := by
  obtain ⟨tokens, htokens, hspells⟩ := hwrites
  have hread := (lexes_keyword .USE).append_blank htokens [] ends_nil
  rw [List.append_nil, readAll_nil] at hread
  apply Statement.parse_eq_ok_iff.2
  refine ⟨_, ?_, .bare (.useDatabase hspells)⟩
  rw [trim_use hvalid]
  exact hread

theorem readAll_of_readName?_eq_none (hread : readName? name = none) :
    readAll name.toList = .error (.outOfRange, name.toList) := by
  unfold readName? at hread
  split at hread
  · next hdigits =>
    split at hread
    · cases hread
    · next hbound =>
      have hrange : Text.toInt64? (Text.digitsValue name.toList) = none :=
        if_neg fun hboth => hbound hboth.2
      have hnext := next_of_digits (toList_ne_nil_of_isValidName hvalid)
        (List.all_eq_true.1 hdigits) ends_nil
      rw [hrange, List.append_nil] at hnext
      rw [readAll_eq, hnext]
  · cases hread

/-- A number that is too large is an error of syntax, at the place where it starts. -/
theorem parse_use_of_none (hread : readName? name = none) :
    Statement.parse ("USE " ++ name) = .error (.syntaxError (.unreadable ⟨.outOfRange, 4⟩)) := by
  have hfault : readAll ("USE".toList ++ ' ' :: name.toList) = .error (.outOfRange, name.toList) := by
    -- The keyword is read in front of any text, also of one that cannot be read itself.
    have hlexes := lexes_keyword .USE (' ' :: name.toList) (ends_blank _)
    rw [readAll_blank, readAll_of_readName?_eq_none hvalid hread] at hlexes
    exact hlexes
  have hposition : ("USE".toList ++ ' ' :: name.toList).length - name.toList.length = 4 := by
    rw [List.length_append, List.length_cons]
    change 3 + (name.toList.length + 1) - name.toList.length = 4
    omega
  have hleads : Statement.leadsWithCommand ("USE".toList ++ ' ' :: name.toList) = true := rfl
  rw [Statement.parse, trim_use hvalid, Statement.tokens, Token.ofText, hfault]
  simp only [hposition, hleads, if_true]
  rfl

include hkeyword

theorem parse_use : Statement.parse ("USE " ++ name) =
    match readName? name with
    | some other => .ok (.useDatabase other)
    | none => .error (.syntaxError (.unreadable ⟨.outOfRange, 4⟩)) := by
  cases hread : readName? name with
  | none => exact parse_use_of_none hvalid hread
  | some other => exact parse_use_of_writes hvalid (writes_readName? hvalid hkeyword hread)

theorem parse_use_eq_iff :
    Statement.parse ("USE " ++ name) = .ok (.useDatabase name) ↔ IsName name := by
  rw [isName_iff_readName? hvalid hkeyword, parse_use hvalid hkeyword]
  cases readName? name <;> simp

theorem Session.execute_use_iff {session : Session} {catalog : Catalog}
    (hcatalog : session.catalog = some catalog) (hname : name ∈ catalog.databaseNames) :
    (∃ after outcome, session.execute ("USE " ++ name) = (after, .ok outcome) ∧
      after.active = some name) ↔ IsName name := by
  constructor
  · rintro ⟨after, outcome, hexecute, hactive⟩
    rw [execute, parse_use hvalid hkeyword] at hexecute
    cases hread : readName? name with
    | none =>
      rw [hread] at hexecute
      cases hexecute
    | some other =>
      rw [hread] at hexecute
      obtain ⟨-, rfl, -⟩ := run_useDatabase_eq_ok_iff.1 hexecute
      obtain rfl : other = name := Option.some.inj hactive
      exact (isName_iff_readName? hvalid hkeyword).2 hread
  · intro hisName
    refine ⟨{ session.record ("USE " ++ name) with active := some name }, .affected 0, ?_, rfl⟩
    rw [execute, (parse_use_eq_iff hvalid hkeyword).2 hisName]
    exact run_useDatabase_eq_ok_iff.2 ⟨⟨catalog, hcatalog, hname⟩, rfl, rfl⟩

/-- The shell starts with the database that it is told, if a statement can name that. -/
theorem Shell.importSession_iff {dump : String} {catalog : Catalog}
    (hdump : Catalog.ofJson dump = .ok catalog) (hname : name ∈ catalog.databaseNames)
    (path : String) :
    (∃ session, importSession path (.ok dump) (some name) = .ok session ∧
      session.active = some name) ↔ IsName name := by
  let config := { SessionConfig.standard with createStorage := false }
  let imported : Session := { Session.fresh config with catalog := some catalog }
  have himport : (Session.importCatalog dump).runOk (Session.fresh config) = .ok imported :=
    Mutation.runOk_eq_ok_iff.2 ⟨(), Session.run_importCatalog_eq_ok_iff.2 ⟨catalog, hdump, rfl⟩⟩
  rw [← Session.execute_use_iff hvalid hkeyword (show imported.catalog = some catalog from rfl) hname]
  have hstart : importSession path (.ok dump) (some name) =
      ((imported.execute ("USE " ++ name)).2.map fun _ =>
        (imported.execute ("USE " ++ name)).1).mapError .failed := by
    unfold importSession
    dsimp only
    rw [show (Session.importCatalog dump).runOk _ = _ from himport]
    change Except.bind (.ok imported) _ = _
    rw [Except.bind]
    cases (imported.execute ("USE " ++ name)).2 <;> rfl
  rw [hstart]
  cases imported.execute ("USE " ++ name) with
  | mk after result => cases result <;> simp [Except.map, Except.mapError]

end

theorem Session.importJson_of_ofJson (session : Session) {dump : String} {catalog : Catalog}
    (hdump : Catalog.ofJson dump = .ok catalog) :
    session.importJson dump = ({ session with catalog := some catalog, active := none }, .ok ()) :=
  run_importCatalog_eq_ok_iff.2 ⟨catalog, hdump, rfl⟩

/-- What the statement that puts a database to use is read as, for all names that a database may bear
    and that are no keyword. It names this database, and puts it to use after an import, exactly if the
    name is not made of digits alone or is a number as that is written. -/
theorem database_addressed_iff {name : String} (hvalid : isValidName name = true)
    (hkeyword : ∀ keyword ∈ Keyword.all, name.toList.map Char.toUpper ≠ keyword.text.toList) :
    Statement.parse ("USE " ++ name) =
        (match readName? name with
        | some other => .ok (.useDatabase other)
        | none => .error (.syntaxError (.unreadable ⟨.outOfRange, 4⟩))) ∧
      (Statement.parse ("USE " ++ name) = .ok (.useDatabase name) ↔ IsName name) ∧
      ∀ dump catalog, Catalog.ofJson dump = .ok catalog → name ∈ catalog.databaseNames →
        (∀ session : Session,
          (∃ after outcome,
            (session.importJson dump).1.execute ("USE " ++ name) = (after, .ok outcome) ∧
              after.active = some name) ↔ IsName name) ∧
        ∀ path, (∃ session, Shell.importSession path (.ok dump) (some name) = .ok session ∧
          session.active = some name) ↔ IsName name := by
  refine ⟨parse_use hvalid hkeyword, parse_use_eq_iff hvalid hkeyword, ?_⟩
  intro dump catalog hdump hname
  refine ⟨fun session => ?_, Shell.importSession_iff hvalid hkeyword hdump hname⟩
  rw [session.importJson_of_ofJson hdump]
  exact Session.execute_use_iff hvalid hkeyword rfl hname

/-- A dump with two databases without tables, which bear numbers. -/
def numbered : String :=
  "\x7b\"2024\": \x7b\x7d, \"007\": \x7b\x7d\x7d"

def numberedCatalog : Catalog :=
  ⟨.ofList [("2024", .empty), ("007", .empty)]⟩

theorem database_addressed_numbered :
    Statement.parse ("USE " ++ "2024") = .ok (.useDatabase "2024") ∧
      (∃ session, Shell.importSession "dump.json" (.ok numbered) (some "2024") = .ok session ∧
        session.active = some "2024") ∧
      ¬∃ session, Shell.importSession "dump.json" (.ok numbered) (some "007") = .ok session ∧
        session.active = some "007" := by
  have hdump : Catalog.ofJson numbered = .ok numberedCatalog := by decide +kernel
  obtain ⟨-, hparse, hyear⟩ := database_addressed_iff (show isValidName "2024" = true by decide)
    (by decide)
  obtain ⟨-, -, hzeros⟩ := database_addressed_iff (show isValidName "007" = true by decide)
    (by decide)
  refine ⟨hparse.2 (by decide), ?_, ?_⟩
  · exact ((hyear numbered _ hdump (by decide)).2 "dump.json").2 (by decide)
  · intro hreached
    exact absurd (((hzeros numbered _ hdump (by decide)).2 "dump.json").1 hreached) (by decide)

/-- Zeros in front are lost, so that an imported database whose name starts with them is not found. -/
theorem zeros_not_addressed :
    isValidName "007" = true ∧
      (∀ keyword ∈ Keyword.all, "007".toList.map Char.toUpper ≠ keyword.text.toList) ∧
      Statement.parse "USE 007" = .ok (.useDatabase "7") ∧
      Catalog.ofJson numbered = .ok numberedCatalog ∧ "007" ∈ numberedCatalog.databaseNames ∧
      ∀ session : Session, ((session.importJson numbered).1.execute "USE 007").2 =
        .error (.unknownDatabase "7") := by
  have hparse : Statement.parse "USE 007" = .ok (.useDatabase "7") := by decide +kernel
  have hdump : Catalog.ofJson numbered = .ok numberedCatalog := by decide +kernel
  refine ⟨by decide, by decide, hparse, hdump, by decide, fun session => ?_⟩
  rw [session.importJson_of_ofJson hdump, Session.execute, hparse]
  rfl

end TableEngine
