import TableEngine.Proofs.Splitting

/-!
Scripts that come in chunks. A chunk that ends with a terminator outside of quotes leaves nothing for the
chunk behind it to go on with: its statements are complete. So a script that is cut behind terminators,
however often, does chunk by chunk what it does as a whole (`Session.executeScript_compose`).
-/

namespace TableEngine

namespace Script

/-- A text holds a terminator outside of quotes, and nothing but blanks behind the last one. -/
def EndsWithTerminator (text : List Char) : Prop :=
  ∃ front sign blanks, text = front ++ (sign ++ blanks) ∧ quoteBehind none front = none ∧
    IsTerminator sign ∧ ∀ c ∈ blanks, Text.isBlank c = true

/-- No piece of a text reaches over a terminator that ends its first part. -/
theorem EndsWithTerminator.pieces_append {front : List Char} (hfront : EndsWithTerminator front)
    (back : List Char) : pieces (front ++ back) = pieces front ++ pieces back := by
  obtain ⟨start, sign, blanks, rfl, hclosed, hsign, hblanks⟩ := hfront
  have hcomplete : pieces (start ++ (sign ++ blanks)) = pieces start := by
    rw [pieces_of_terminator hsign hclosed, pieces_of_blanks hblanks, List.append_nil]
  have hwhole : pieces (start ++ (sign ++ (blanks ++ back))) = pieces start ++ pieces back := by
    rw [pieces_of_terminator hsign hclosed, (filler_of_blanks hblanks).pieces_append]
  rw [hcomplete, ← hwhole]
  simp

theorem EndsWithTerminator.statements_append {front : String}
    (hfront : EndsWithTerminator front.toList) (back : String) :
    statements (front ++ back) = statements front ++ statements back := by
  rw [statements, String.toList_append, hfront.pieces_append, List.map_append]
  rfl

end Script

namespace Session

/-- Executes scripts one after the other. -/
def executeScripts (session : Session) : List String → Session × List (Except Error Outcome)
  | [] => (session, [])
  | script :: scripts =>
    let (session, results) := session.executeScript script
    let (session, others) := executeScripts session scripts
    (session, results ++ others)

theorem executeScripts_cons (session : Session) (script : String) (scripts : List String) :
    session.executeScripts (script :: scripts) =
      (((session.executeScript script).1.executeScripts scripts).1,
        (session.executeScript script).2 ++
          ((session.executeScript script).1.executeScripts scripts).2) :=
  rfl

theorem executeScripts_singleton (session : Session) (script : String) :
    session.executeScripts [script] = session.executeScript script := by
  rw [executeScripts_cons]
  simp [executeScripts]

/-- A chunk that ends with a terminator can be executed ahead of what follows. -/
theorem executeScript_append {front : String} (hfront : Script.EndsWithTerminator front.toList)
    (session : Session) (back : String) :
    session.executeScript (front ++ back) =
      (((session.executeScript front).1.executeScript back).1,
        (session.executeScript front).2 ++
          ((session.executeScript front).1.executeScript back).2) := by
  unfold executeScript
  rw [hfront.statements_append, executeAll_append]

/-- Any number of chunks that end with terminators can be executed one after the other. -/
theorem executeScript_join_append {chunks : List String}
    (hchunks : ∀ chunk ∈ chunks, Script.EndsWithTerminator chunk.toList) (session : Session)
    (back : String) :
    session.executeScript (String.join chunks ++ back) =
      session.executeScripts (chunks ++ [back]) := by
  induction chunks generalizing session with
  | nil => simp [executeScripts_singleton]
  | cons chunk chunks ih =>
    rw [List.forall_mem_cons] at hchunks
    rw [String.join_cons, String.append_assoc, executeScript_append hchunks.1, List.cons_append,
      executeScripts_cons, ih hchunks.2]

/-- The statements of a script whose first part ends with a terminator are those of this part and those
    of the rest. Both parts executed one after the other give the results of the whole, and leave the same
    catalog, database in use and log behind. The same holds when more parts like the first one are cut
    off. -/
theorem executeScript_compose {front : String} (hfront : Script.EndsWithTerminator front.toList)
    (back : String) :
    Script.statements (front ++ back) = Script.statements front ++ Script.statements back ∧
      (∀ session : Session, session.executeScript (front ++ back) =
        (((session.executeScript front).1.executeScript back).1,
          (session.executeScript front).2 ++
            ((session.executeScript front).1.executeScript back).2)) ∧
      ∀ chunks : List String,
        (∀ chunk ∈ chunks, Script.EndsWithTerminator chunk.toList) →
        ∀ session : Session, session.executeScript (String.join (front :: chunks) ++ back) =
          session.executeScripts (front :: chunks ++ [back]) := by
  refine ⟨hfront.statements_append back, fun session => executeScript_append hfront session back, ?_⟩
  intro chunks hchunks session
  exact executeScript_join_append (List.forall_mem_cons.2 ⟨hfront, hchunks⟩) session back

/-- A chunk with terminators in quotes, and one that ends it. -/
def quotedChunk : String :=
  "CREATE DATABASE a;USE 'a;'\";\"\\g\n"

/-- The letter of a terminator may follow on a chunk, and so may a quote that is left open. -/
def openChunk : String :=
  "g; USE a; SHOW 'b"

/-- The database that the first chunk creates is put to use by the second one, whether they are executed
    one after the other or as a whole. -/
theorem executeScript_compose_quoted :
    Script.EndsWithTerminator quotedChunk.toList ∧
      Script.statements (quotedChunk ++ openChunk) =
        ["CREATE DATABASE a", "USE 'a;'\";\"", "g", "USE a", "SHOW 'b"] ∧
      ((fresh .standard).executeScript quotedChunk).2 =
        [.ok (.affected 1), .error (.syntaxError (.unexpected (.text "a;")))] ∧
      (((fresh .standard).executeScript quotedChunk).1.executeScript openChunk).2 =
        [.error .unknownCommand, .ok (.affected 0),
          .error (.syntaxError (.unreadable ⟨.unterminated, 5⟩))] ∧
      ((fresh .standard).executeScript (quotedChunk ++ openChunk)).2 =
        [.ok (.affected 1), .error (.syntaxError (.unexpected (.text "a;"))), .error .unknownCommand,
          .ok (.affected 0), .error (.syntaxError (.unreadable ⟨.unterminated, 5⟩))] ∧
      ∀ session : Session, (session.executeScript (quotedChunk ++ openChunk)).1 =
        ((session.executeScript quotedChunk).1.executeScript openChunk).1 := by
  have hended : Script.EndsWithTerminator quotedChunk.toList :=
    ⟨"CREATE DATABASE a;USE 'a;'\";\"".toList, ['\\', 'g'], ['\n'], by decide, by decide, .inr rfl,
      List.forall_mem_singleton.2 rfl⟩
  obtain ⟨hstatements, hsession, -⟩ := executeScript_compose hended openChunk
  have hfirst : ((fresh .standard).executeScript quotedChunk).2 =
      [.ok (.affected 1), .error (.syntaxError (.unexpected (.text "a;")))] := by
    decide +kernel
  have hsecond : (((fresh .standard).executeScript quotedChunk).1.executeScript openChunk).2 =
      [.error .unknownCommand, .ok (.affected 0),
        .error (.syntaxError (.unreadable ⟨.unterminated, 5⟩))] := by
    decide +kernel
  refine ⟨hended, ?_, hfirst, hsecond, ?_, fun session => by rw [hsession]⟩
  · rw [hstatements]
    decide
  · rw [hsession, hfirst, hsecond]
    rfl

end Session

end TableEngine
