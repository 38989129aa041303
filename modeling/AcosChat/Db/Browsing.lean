import AcosChat.Db.Busy

/-!
# The statement of `browse_history`

`browse_history` by the calls that it makes with its statement, over any sequence of results of
`sqlite3_step`. After a result other than a row it finalizes the statement and goes on: it
calls the callback and steps the statement again.
-/
namespace AcosChat

variable {ρ : Type}

/-- A call with the statement. -/
inductive StatementCall (ρ : Type) where
  /-- `sqlite3_step` -/
  | stepped (result : SqlStep ρ)
  /-- The callback, which reads the columns. -/
  | callback
  /-- `sqlite3_finalize` -/
  | finalized
deriving DecidableEq, Repr

/-- `browse_history` after `sqlite3_bind_int`: the calls, and whether it returns. -/
def browseCalls : Bool → List (SqlStep ρ) → List (StatementCall ρ) × Bool
  | _, [] => ([], false)
  | _, .busy :: rest =>
    let (calls, returns) := browseCalls true rest
    (.stepped .busy :: calls, returns)
  | _, .row columns :: rest =>
    let (calls, returns) := browseCalls false rest
    (.stepped (.row columns) :: .callback :: calls, returns)
  | false, .done :: _ => ([.stepped .done, .finalized], true)
  -- The branch for a result other than a row does not leave the loop.
  | true, .done :: rest =>
    let (calls, returns) := browseCalls false rest
    (.stepped .done :: .finalized :: .callback :: calls, returns)
  | _, .error :: rest =>
    let (calls, returns) := browseCalls false rest
    (.stepped .error :: .finalized :: .callback :: calls, returns)

/-! ### What the calls should be -/

/-- What each callback visits: the row of the step before it, if that was a row, the statement is
not finalized and no other callback has visited it. -/
def visitedRows : Option ρ → List (StatementCall ρ) → List (Option ρ)
  | _, [] => []
  | _, .stepped (.row columns) :: calls => visitedRows (some columns) calls
  | _, .stepped _ :: calls | _, .finalized :: calls => visitedRows none calls
  | last, .callback :: calls => last :: visitedRows none calls

/-- The results that have been stepped to. -/
def steppedResults : List (StatementCall ρ) → List (SqlStep ρ)
  | [] => []
  | .stepped result :: calls => result :: steppedResults calls
  | .callback :: calls | .finalized :: calls => steppedResults calls

/-- The results up to the first DONE or error, that one included. -/
def upToEnding : List (SqlStep ρ) → List (SqlStep ρ)
  | [] => []
  | .done :: _ => [.done]
  | .error :: _ => [.error]
  | .busy :: rest => .busy :: upToEnding rest
  | .row columns :: rest => .row columns :: upToEnding rest

def isFinalized : StatementCall ρ → Bool
  | .finalized => true
  | .stepped _ | .callback => false

/-- The calls for these results visit the rows, and only the rows. -/
structure VisitsRows (results : List (SqlStep ρ)) (calls : List (StatementCall ρ)) (returns : Bool) : Prop where
  /-- One callback for each ROW, in order, and none after another result. -/
  visited : visitedRows none calls = (rowsBefore results).map some
  /-- The statement is finalized once, unless nothing has ended the loop yet. -/
  finalized : calls.countP isFinalized = if ending results = none then 0 else 1
  /-- It is not used after it was finalized. -/
  unused : ∀ before after, calls = before ++ .finalized :: after → after = []
  /-- The first DONE or error is the last step, and ends the function. -/
  stepped : steppedResults calls = upToEnding results
  returned : returns = true ↔ ending results ≠ none

/-- The results end with an error, or with a DONE that comes right after a BUSY. -/
def EndsAbruptly (waiting : Bool) (results : List (SqlStep ρ)) : Prop :=
  ending results = some .error ∨ doneAfterBusy waiting results = true

/-! ### One result -/

namespace VisitsRows

variable {results : List (SqlStep ρ)} {calls : List (StatementCall ρ)} {returns : Bool}

theorem nil : VisitsRows ([] : List (SqlStep ρ)) [] false :=
  ⟨rfl, rfl, by simp, rfl, by simp [ending]⟩

theorem done : VisitsRows (.done :: results) [.stepped .done, .finalized] true := by
  refine ⟨rfl, rfl, ?_, rfl, by simp [ending]⟩
  intro before after split
  rcases before with _ | ⟨_, _ | ⟨_, before⟩⟩
  · cases split
  · exact (List.cons.inj (List.cons.inj split).2).2.symm
  · simp at split

theorem busy (good : VisitsRows results calls returns) :
    VisitsRows (.busy :: results) (.stepped .busy :: calls) returns := by
  refine ⟨good.visited, good.finalized, ?_, congrArg (SqlStep.busy :: ·) good.stepped, good.returned⟩
  intro before after split
  rcases before with _ | ⟨_, before⟩
  · cases split
  · exact good.unused before after (List.cons.inj split).2

theorem row (good : VisitsRows results calls returns) (columns : ρ) :
    VisitsRows (.row columns :: results) (.stepped (.row columns) :: .callback :: calls) returns := by
  refine ⟨congrArg (some columns :: ·) good.visited, good.finalized, ?_,
    congrArg (SqlStep.row columns :: ·) good.stepped, good.returned⟩
  intro before after split
  rcases before with _ | ⟨_, _ | ⟨_, before⟩⟩
  · cases split
  · cases split
  · exact good.unused before after (List.cons.inj (List.cons.inj split).2).2

end VisitsRows

/-! ### Any number of results -/

/-- Up to a DONE that the outer loop reads, `browse_history` does what it should. -/
theorem browseCalls_visitsRows (waiting : Bool) (results : List (SqlStep ρ))
    (gentle : ¬EndsAbruptly waiting results) :
    VisitsRows results (browseCalls waiting results).1 (browseCalls waiting results).2 := by
  induction results generalizing waiting with
  | nil => exact .nil
  | cons result results ih =>
    cases result with
    | row columns => exact (ih false gentle).row columns
    | busy => exact (ih true gentle).busy
    | error => exact absurd (.inl rfl) gentle
    | done =>
      cases waiting with
      | false => exact .done
      -- The inner loop takes the DONE for a failure.
      | true => exact absurd (.inr rfl) gentle

/-- After another ending the callback is called on the finalized statement. -/
theorem browseCalls_abrupt (waiting : Bool) (results : List (SqlStep ρ)) (abrupt : EndsAbruptly waiting results) :
    ∃ before after, (browseCalls waiting results).1 = before ++ .finalized :: .callback :: after := by
  induction results generalizing waiting with
  | nil => rcases abrupt with ends | late <;> contradiction
  | cons result results ih =>
    cases result with
    | row columns =>
      obtain ⟨before, after, split⟩ := ih false abrupt
      exact ⟨.stepped (.row columns) :: .callback :: before, after, by simp [browseCalls, split]⟩
    | busy =>
      obtain ⟨before, after, split⟩ := ih true abrupt
      exact ⟨.stepped .busy :: before, after, by simp [browseCalls, split]⟩
    | error => cases waiting <;> exact ⟨[.stepped .error], _, rfl⟩
    | done =>
      cases waiting with
      | true => exact ⟨[.stepped .done], _, rfl⟩
      | false => rcases abrupt with ends | late <;> simp [ending, doneAfterBusy] at *

/-- Over any sequence of results, `browse_history` visits the rows and only the rows, and uses its
statement until it finalizes it, if and only if the first result that is neither a row nor
BUSY is not an error, and not a DONE that comes right after a BUSY. -/
theorem browse_visits_rows_iff (results : List (SqlStep ρ)) :
    VisitsRows results (browseCalls false results).1 (browseCalls false results).2 ↔
      ¬(ending results = some .error ∨ doneAfterBusy false results = true) := by
  constructor
  · intro good abrupt
    obtain ⟨before, after, split⟩ := browseCalls_abrupt false results abrupt
    have wrong := good.unused before (.callback :: after) split
    cases wrong
  · exact browseCalls_visitsRows false results

/-- An error: the callback reads a row of the finalized statement, which is stepped again. -/
theorem browse_past_error : ¬∀ results : List (SqlStep StoredMessage),
    VisitsRows results (browseCalls false results).1 (browseCalls false results).2 := by
  intro claim
  have wrong := (claim [.error]).visited
  cases wrong

/-! ### On a table -/

/-- `browse_history` has the rows that its loop goes through. -/
theorem browseHistory_eq_some (noise : List Noise) (cnt : Int) (db : Db) (rows : List StoredMessage) :
    let results := answers (selectHistory db (toRange 0 cnt maxHistoryLength).toNat) noise
    browseHistory noise cnt db = some rows ↔
      ending results = some .done ∧ doneAfterBusy false results = false ∧ rowsBefore results = rows := by
  intro results
  have collect : ∀ rows front : List StoredMessage,
      rows.foldl (fun rows row => rows ++ [row]) front = front ++ rows := by
    intro rows
    induction rows with
    | nil => simp
    | cons row rows ih => simp [ih]
  have loop := eachRow_done_iff (fun (rows : List StoredMessage) row => rows ++ [row]) [] rows results
  rw [collect, List.nil_append] at loop
  rw [← loop, browseHistory]
  generalize eachRow (fun (rows : List StoredMessage) row => rows ++ [row]) false [] results = outcome
  cases outcome <;> simp

/-- These are the rows of its query, all of them. -/
theorem rows_of_browseHistory {noise : List Noise} {cnt : Int} {db : Db} {rows : List StoredMessage}
    (browsed : browseHistory noise cnt db = some rows) :
    rows = selectHistory db (toRange 0 cnt maxHistoryLength).toNat := by
  obtain ⟨ends, _, rfl⟩ := (browseHistory_eq_some noise cnt db rows).mp browsed
  exact rowsBefore_answers ends

/-- Where nothing interrupts it, it has them all. -/
theorem browseHistory_quiet {noise : List Noise} (quiet : ∀ n ∈ noise, n = .ok) (cnt : Int) (db : Db) :
    browseHistory noise cnt db = some (selectHistory db (toRange 0 cnt maxHistoryLength).toNat) := by
  have loop := eachRow_quiet (fun (rows : List StoredMessage) row => rows ++ [row])
    (selectHistory db (toRange 0 cnt maxHistoryLength).toNat) noise quiet []
  obtain ⟨ends, onTime, _⟩ := (eachRow_done_iff _ _ _ _).mp loop
  exact (browseHistory_eq_some noise cnt db _).mpr ⟨ends, onTime, rowsBefore_answers ends⟩

/-- They are what its calls visit. -/
theorem browseHistory_eq_some_iff (noise : List Noise) (cnt : Int) (db : Db) (rows : List StoredMessage) :
    let results := answers (selectHistory db (toRange 0 cnt maxHistoryLength).toNat) noise
    browseHistory noise cnt db = some rows ↔
      VisitsRows results (browseCalls false results).1 (browseCalls false results).2 ∧
        (browseCalls false results).2 = true ∧
        visitedRows none (browseCalls false results).1 = rows.map some := by
  intro results
  apply (browseHistory_eq_some noise cnt db rows).trans
  constructor
  · rintro ⟨ends, onTime, rfl⟩
    have good := (browse_visits_rows_iff results).mpr (by simp [results, ends, onTime])
    exact ⟨good, good.returned.mpr (by simp [results, ends]), good.visited⟩
  · rintro ⟨good, returns, visits⟩
    have gentle := (browse_visits_rows_iff results).mp good
    have ends := good.returned.mp returns
    rw [good.visited] at visits
    refine ⟨?_, Bool.eq_false_iff.mpr fun late => gentle (.inr late),
      List.map_injective_iff.mpr (Option.some_injective _) visits⟩
    cases last : ending results with
    | none => exact absurd last ends
    | some e =>
      cases e with
      | done => rfl
      | error => exact absurd (.inl last) gentle

end AcosChat
