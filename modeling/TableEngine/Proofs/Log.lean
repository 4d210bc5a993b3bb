import TableEngine.Proofs.Reachable

/-!
The log. It holds the newest of the texts that a session has received, as many as its capacity allows
(`Session.log_run`). Carrying out a statement and importing a dump leave it alone, whether or not they
succeed.
-/

namespace TableEngine

open Mutation

namespace Session

/-- The texts that a call hands to the log, the oldest first. -/
def Call.texts : Call → List String
  | .execute text => [text]
  | .executeScript script => Script.statements script
  | .executeStatement _ | .importJson _ => []

/-- The newest texts that a log of some capacity has room for. -/
def newest (capacity : Option Nat) (texts : List String) : List String :=
  match capacity with
  | none => texts
  | some count => texts.drop (texts.length - count)

theorem newest_suffix (capacity : Option Nat) (texts : List String) :
    newest capacity texts <:+ texts := by
  cases capacity with
  | none => exact List.suffix_rfl
  | some count => exact List.drop_suffix _ _

/-- What the log has given up, it would give up later too. -/
theorem newest_newest_append (capacity : Option Nat) (front back : List String) :
    newest capacity (newest capacity front ++ back) = newest capacity (front ++ back) := by
  cases capacity with
  | none => rfl
  | some count =>
    have hdrop : front.drop (front.length - count) ++ back =
        (front ++ back).drop (front.length - count) :=
      (List.drop_append_of_le_length (Nat.sub_le _ _)).symm
    simp only [newest, hdrop, List.drop_drop, List.length_drop, List.length_append]
    congr 1
    omega

/-! What single steps do to the log. -/

/-- The session has this log, with this capacity. -/
def Logs (log : List String) (capacity : Option Nat) (session : Session) : Prop :=
  session.log = log ∧ session.logCapacity = capacity

section

variable {log : List String} {capacity : Option Nat}

theorem keeps_logs_inCatalog {α : Type} (missing : Error) (change : Mutation Catalog α) :
    (inCatalog missing change).Keeps (Logs log capacity) := by
  intro session hlogs
  rw [inCatalog, run_onPart]
  split
  · exact hlogs
  · exact hlogs

theorem keeps_logs_inActive {α : Type} (change : Mutation Database α) :
    (inActive change).Keeps (Logs log capacity) := by
  refine readOnly_get.keeps.bind ?_
  intro session
  cases session.active with
  | none => exact (readOnly_fail _).keeps
  | some name => exact keeps_logs_inCatalog _ _

theorem keeps_logs_dropDatabase (name : String) :
    (dropDatabase name).Keeps (Logs log capacity) := by
  refine (keeps_logs_inCatalog _ _).bind fun tables => (Keeps.modify ?_).bind fun _ => keeps_pure _ _
  intro session hlogs
  split
  · exact hlogs
  · exact hlogs

theorem keeps_logs_useDatabase (name : String) :
    (useDatabase name).Keeps (Logs log capacity) := by
  refine readOnly_get.keeps.bind fun session => (readOnly_require _ _).keeps.bind fun _ => ?_
  refine (Keeps.modify ?_).bind fun _ => keeps_pure _ _
  exact fun _ hlogs => hlogs

/-- Statements are carried out without a trace in the log. -/
theorem keeps_logs_perform (statement : Statement) :
    (perform statement).Keeps (Logs log capacity) := by
  cases statement with
  | createDatabase => exact (keeps_logs_inCatalog _ _).bind fun _ => keeps_pure _ _
  | dropDatabase name => exact keeps_logs_dropDatabase name
  | useDatabase name => exact keeps_logs_useDatabase name
  | createTable | dropTable => exact (keeps_logs_inActive _).bind fun _ => keeps_pure _ _
  | insert | update | delete => exact (keeps_logs_inActive _).map _
  | showDatabases | showTables | describe | select => exact (readOnly_reading _).keeps

theorem keeps_logs_importCatalog (dump : String) :
    (importCatalog dump).Keeps (Logs log capacity) := by
  refine (atomic_importCatalog dump).keeps ?_
  intro before after u hlogs hrun
  obtain ⟨catalog, -, rfl⟩ := run_importCatalog_eq_ok_iff.1 hrun
  exact hlogs

end

/-- A text is logged before it is read, so that it does not matter whether it spells a statement. -/
theorem logs_execute {session : Session} {log : List String} {capacity : Option Nat}
    (hlogs : session.Logs log capacity) (text : String) :
    (session.execute text).1.Logs (newest capacity (log ++ [text])) capacity := by
  obtain ⟨rfl, rfl⟩ := hlogs
  have hrecord : (session.record text).Logs (newest session.logCapacity (session.log ++ [text]))
      session.logCapacity := ⟨rfl, rfl⟩
  unfold execute
  dsimp only
  split
  · exact keeps_logs_perform _ hrecord
  · exact hrecord

/-! What sequences of steps do to it. The log so far is given as the newest of all texts received. -/

theorem logs_executeAll {session : Session} {received : List String} {capacity : Option Nat}
    (hlogs : session.Logs (newest capacity received) capacity) (texts : List String) :
    (session.executeAll texts).1.Logs (newest capacity (received ++ texts)) capacity := by
  induction texts generalizing session received with
  | nil => rwa [List.append_nil]
  | cons text texts ih =>
    have hfirst := logs_execute hlogs text
    rw [newest_newest_append] at hfirst
    have hrest := ih hfirst
    rwa [List.append_assoc] at hrest

theorem logs_after {session : Session} {received : List String} {capacity : Option Nat}
    (hlogs : session.Logs (newest capacity received) capacity) (call : Call) :
    (session.after call).Logs (newest capacity (received ++ call.texts)) capacity := by
  cases call with
  | execute text => exact logs_executeAll hlogs [text]
  | executeScript script => exact logs_executeAll hlogs (Script.statements script)
  | executeStatement statement =>
    rw [Call.texts, List.append_nil]
    exact keeps_logs_perform statement hlogs
  | importJson dump =>
    rw [Call.texts, List.append_nil]
    exact keeps_logs_importCatalog dump hlogs

theorem logs_run {session : Session} {received : List String} {capacity : Option Nat}
    (hlogs : session.Logs (newest capacity received) capacity) (calls : List Call) :
    (session.run calls).Logs (newest capacity (received ++ calls.flatMap Call.texts)) capacity := by
  induction calls generalizing session received with
  | nil => rwa [List.flatMap_nil, List.append_nil]
  | cons call calls ih =>
    have hrest := ih (logs_after hlogs call)
    rwa [List.append_assoc] at hrest

theorem logs_start {config : SessionConfig} {session : Session}
    (hstart : start config = .ok session) :
    session.Logs (newest config.logCapacity []) config.logCapacity := by
  have hnil : newest config.logCapacity [] = [] := List.suffix_nil.1 (newest_suffix _ _)
  rw [hnil]
  rcases start_eq_ok_iff.1 hstart with ⟨-, rfl⟩ | ⟨name, -, -, -, rfl⟩
  · exact ⟨rfl, rfl⟩
  · exact ⟨rfl, rfl⟩

/-- After any calls the log holds the newest texts received, in order and as they came in: all of them
    without a capacity, and with one as many as it allows. -/
theorem log_run {config : SessionConfig} {session : Session} (hstart : start config = .ok session)
    (calls : List Call) :
    (session.run calls).log <:+ calls.flatMap Call.texts ∧
      (session.run calls).log.length =
        match config.logCapacity with
        | none => (calls.flatMap Call.texts).length
        | some capacity => min capacity (calls.flatMap Call.texts).length := by
  obtain ⟨hlog, -⟩ := logs_run (logs_start hstart) calls
  rw [List.nil_append] at hlog
  rw [hlog]
  refine ⟨newest_suffix _ _, ?_⟩
  cases config.logCapacity with
  | none => rfl
  | some capacity =>
    simp only [newest, List.length_drop]
    omega

/-- A session with a log of three texts. -/
def forgetful : SessionConfig :=
  ⟨true, some 3, some "shop"⟩

/-- Five texts come in, some of which spell no statement, and a statement and a dump that are no texts. -/
def visits : List Call := [
  .execute "OPEN shop",
  .executeScript "SHOW TABLES; SELECT ;; USE shop",
  .executeStatement (.createDatabase "depot"),
  .importJson "[]",
  .execute " SHOW DATABASES "]

/-- The log has given up the first two of the texts, and kept the one that spells no statement. -/
theorem log_run_forgetful :
    ∃ session, start forgetful = .ok session ∧
      (session.run visits).log = ["SELECT", "USE shop", " SHOW DATABASES "] := by
  have hstart : start forgetful = .ok _ := rfl
  obtain ⟨hsuffix, hlength⟩ := log_run hstart visits
  have hreceived : visits.flatMap Call.texts =
      ["OPEN shop", "SHOW TABLES", "SELECT", "USE shop", " SHOW DATABASES "] := by
    decide +kernel
  rw [hreceived] at hsuffix hlength
  refine ⟨_, hstart, ?_⟩
  rw [List.suffix_iff_eq_drop.1 hsuffix, hlength]
  rfl

end Session

end TableEngine
