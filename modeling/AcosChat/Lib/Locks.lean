import AcosChat.Lib.Run
import Mathlib.Data.List.MinMax

/-!
# Locks

Threads run code that takes locks, gives them back, reads and writes data, and starts other
threads, each with a lock that it holds for life, so that to wait for its end is to wait for
the lock. Which branch is taken and how often a loop goes round is left open: all states of
the program are reached, and others too, so what holds of all of these holds of the program. If
every lock is taken after those of lower rank only, no threads wait for one another. If whoever
writes data holds all locks of the data, and whoever reads it holds one of them, no thread comes
in between.
-/
namespace Locks

open Run

/-- What a piece of code does to locks and to data. -/
inductive Code (κ ν : Type) where
  | skip
  | read (data : ν)
  | write (data : ν)
  /-- Not recursive: a thread that comes to a lock of its own waits for good. -/
  | locked (lock : κ) (body : Code κ ν)
  | seq (first second : Code κ ν)
  | either (left right : Code κ ν)
  /-- One of many, such as an address known only when the code runs. -/
  | any (branch : Nat → Code κ ν)
  /-- Any number of rounds. -/
  | loop (body : Code κ ν)
  /-- A new thread, and the lock of its life. -/
  | spawn (lock : κ) (body : Code κ ν)

namespace Code

variable {κ ν : Type}

/-- Waits for the end of a thread. -/
def join (lock : κ) : Code κ ν := locked lock skip

/-- One statement after another. -/
def block : List (Code κ ν) → Code κ ν
  | [] => skip
  | code :: rest => seq code (block rest)

/-- A condition without an `else`. -/
def perhaps (body : Code κ ν) : Code κ ν := either body skip

/-- One of several branches, or none. -/
def oneOf : List (Code κ ν) → Code κ ν
  | [] => skip
  | code :: rest => either code (oneOf rest)

end Code

/-- What a thread has still to do: code to run, and a lock to give back after it. -/
inductive Item (κ ν : Type) where
  | run (code : Code κ ν)
  | unlock (lock : κ)

abbrev Thread (κ ν : Type) := List (Item κ ν)

variable {κ ν : Type}

/-- The locks that a thread holds are those it has still to give back. -/
def held : Thread κ ν → List κ
  | [] => []
  | .run _ :: rest => held rest
  | .unlock lock :: rest => lock :: held rest

/-- The next step of a thread, given which locks are free and which way it turns: what it has
to do then, and the thread it has started. -/
def next (free : κ → Bool) (choice : Nat) : Thread κ ν → Option (Thread κ ν × Option (Thread κ ν))
  | [] => none
  | .unlock _ :: rest => some (rest, none)
  | .run .skip :: rest | .run (.read _) :: rest | .run (.write _) :: rest => some (rest, none)
  | .run (.locked lock body) :: rest =>
    if free lock then some (.run body :: .unlock lock :: rest, none) else none
  | .run (.seq first second) :: rest => some (.run first :: .run second :: rest, none)
  | .run (.either left right) :: rest => some (.run (if choice = 0 then left else right) :: rest, none)
  | .run (.any branch) :: rest => some (.run (branch choice) :: rest, none)
  | .run (.loop body) :: rest =>
    some (if choice = 0 then rest else .run body :: .run (.loop body) :: rest, none)
  | .run (.spawn lock body) :: rest =>
    if free lock then some (rest, some [.run body, .unlock lock]) else none

/-! ### What a thread is about to do -/

def AboutToRead (data : ν) (thread : Thread κ ν) : Prop := thread.head? = some (.run (.read data))

def AboutToWrite (data : ν) (thread : Thread κ ν) : Prop := thread.head? = some (.run (.write data))

/-- The lock that a thread is about to take, for itself or for a new thread. -/
def wanted : Thread κ ν → Option κ
  | .run (.locked lock _) :: _ | .run (.spawn lock _) :: _ => some lock
  | _ => none

/-- Two threads are about to come to the same data, and one of them to change it. -/
def Race (threads : List (Thread κ ν)) : Prop :=
  ∃ (i j : Nat) (data : ν), i ≠ j ∧ (∃ thread, threads[i]? = some thread ∧ AboutToWrite data thread) ∧
    ∃ thread, threads[j]? = some thread ∧ (AboutToRead data thread ∨ AboutToWrite data thread)

/-- A thread wants a lock that another one has, or it itself. -/
def WaitsFor (threads : List (Thread κ ν)) (i j : Nat) : Prop :=
  ∃ lock, (∃ thread, threads[i]? = some thread ∧ wanted thread = some lock) ∧
    ∃ thread, threads[j]? = some thread ∧ lock ∈ held thread

/-- Some threads wait for one another, whatever the others do. -/
def Deadlock (threads : List (Thread κ ν)) : Prop :=
  ∃ parties : List Nat, parties ≠ [] ∧ ∀ i ∈ parties, ∃ j ∈ parties, WaitsFor threads i j

/-- Every thread has come to its end. -/
def AllDone (threads : List (Thread κ ν)) : Prop := ∀ thread ∈ threads, thread = []

/-! ### The discipline -/

/-- The order in which locks are taken, and the locks of the data. -/
structure Discipline (κ ν : Type) where
  rank : κ → Nat
  guards : ν → List κ
  /-- Nothing is left unguarded. -/
  guarded : ∀ data, guards data ≠ []

variable (d : Discipline κ ν)

/-- A lock may be taken by who holds these. -/
def Discipline.Above (locks : List κ) (lock : κ) : Prop := ∀ other ∈ locks, d.rank other < d.rank lock

/-- The code keeps to the discipline where it is run with these locks held. -/
def Code.Keeps : List κ → Code κ ν → Prop
  | _, .skip => True
  | locks, .read data => ∃ lock ∈ d.guards data, lock ∈ locks
  | locks, .write data => ∀ lock ∈ d.guards data, lock ∈ locks
  | locks, .locked lock body => d.Above locks lock ∧ body.Keeps (lock :: locks)
  | locks, .seq first second => first.Keeps locks ∧ second.Keeps locks
  | locks, .either left right => left.Keeps locks ∧ right.Keeps locks
  | locks, .any branch => ∀ n, (branch n).Keeps locks
  | locks, .loop body => body.Keeps locks
  | locks, .spawn lock body => d.Above locks lock ∧ body.Keeps [lock]

section

variable {d} {locks : List κ}

@[simp] theorem keeps_skip : (Code.skip : Code κ ν).Keeps d locks := trivial

@[simp] theorem keeps_locked {lock : κ} {body : Code κ ν} :
    (Code.locked lock body).Keeps d locks ↔ d.Above locks lock ∧ body.Keeps d (lock :: locks) := Iff.rfl

@[simp] theorem keeps_any {branch : Nat → Code κ ν} :
    (Code.any branch).Keeps d locks ↔ ∀ n, (branch n).Keeps d locks := Iff.rfl

@[simp] theorem keeps_loop {body : Code κ ν} : (Code.loop body).Keeps d locks ↔ body.Keeps d locks := Iff.rfl

@[simp] theorem keeps_spawn {lock : κ} {body : Code κ ν} :
    (Code.spawn lock body).Keeps d locks ↔ d.Above locks lock ∧ body.Keeps d [lock] := Iff.rfl

@[simp] theorem keeps_join {lock : κ} : (Code.join lock : Code κ ν).Keeps d locks ↔ d.Above locks lock := by
  simp [Code.join]

@[simp] theorem keeps_either {left right : Code κ ν} :
    (Code.either left right).Keeps d locks ↔ left.Keeps d locks ∧ right.Keeps d locks := Iff.rfl

@[simp] theorem keeps_block {codes : List (Code κ ν)} :
    (Code.block codes).Keeps d locks ↔ ∀ code ∈ codes, code.Keeps d locks := by
  induction codes with
  | nil => simp [Code.block]
  | cons code rest ih => simp [Code.block, Code.Keeps, ih]

@[simp] theorem keeps_oneOf {codes : List (Code κ ν)} :
    (Code.oneOf codes).Keeps d locks ↔ ∀ code ∈ codes, code.Keeps d locks := by
  induction codes with
  | nil => simp [Code.oneOf]
  | cons code rest ih => simp [Code.oneOf, ih]

@[simp] theorem keeps_perhaps {body : Code κ ν} : (Code.perhaps body).Keeps d locks ↔ body.Keeps d locks := by
  simp [Code.perhaps, Code.Keeps]

end

/-- So does what a thread has still to do. -/
def Fits : Thread κ ν → Prop
  | [] => True
  | .run code :: rest => code.Keeps d (held rest) ∧ Fits rest
  | .unlock _ :: rest => Fits rest

/-- Every thread keeps to the discipline, and no two hold the same lock. -/
structure Sound (threads : List (Thread κ ν)) : Prop where
  fits : ∀ thread ∈ threads, Fits d thread
  apart : ∀ (i j : Nat) first second, i ≠ j → threads[i]? = some first → threads[j]? = some second →
    ∀ lock ∈ held first, lock ∉ held second

variable {d : Discipline κ ν}

/-! ### One thread -/

/-- A step gives a lock back, or takes a free one, or neither. -/
theorem mem_held_of_next {free : κ → Bool} {choice : Nat} {thread rest : Thread κ ν}
    {started : Option (Thread κ ν)} (taken : next free choice thread = some (rest, started)) {lock : κ}
    (holds : lock ∈ held rest) : lock ∈ held thread ∨ free lock = true := by
  rcases thread with _ | ⟨_ | _, items⟩
  case nil => cases taken
  case cons.unlock =>
    cases taken
    exact .inl (List.mem_cons_of_mem _ holds)
  case cons.run code =>
    cases code with
    | locked lock' body =>
      -- the one step that takes a lock
      rw [next] at taken
      split at taken
      next open_ =>
        cases taken
        rcases List.mem_cons.mp holds with rfl | before
        · exact .inr open_
        · exact .inl before
      next => cases taken
    | spawn lock' body =>
      rw [next] at taken
      split at taken <;> cases taken
      exact .inl holds
    | loop body =>
      cases taken
      split at holds <;> exact .inl holds
    | skip | read | write | seq | either | any =>
      cases taken
      exact .inl holds

/-- A thread is started with a free lock, by a thread that keeps what it holds. -/
theorem started_of_next {free : κ → Bool} {choice : Nat} {thread rest new : Thread κ ν}
    (taken : next free choice thread = some (rest, some new)) :
    ∃ lock, held new = [lock] ∧ free lock = true ∧ held rest = held thread := by
  rcases thread with _ | ⟨_ | _, items⟩
  case nil => cases taken
  case cons.unlock => cases taken
  case cons.run code =>
    cases code with
    | spawn lock body =>
      rw [next] at taken
      split at taken
      next open_ =>
        cases taken
        exact ⟨lock, rfl, open_, rfl⟩
      next => cases taken
    | locked =>
      rw [next] at taken
      split at taken <;> cases taken
    | skip | read | write | seq | either | any | loop => cases taken

/-- What is left to do keeps to the discipline, and so does what has been started. -/
theorem fits_of_next {free : κ → Bool} {choice : Nat} {thread rest : Thread κ ν}
    {started : Option (Thread κ ν)} (taken : next free choice thread = some (rest, started))
    (fits : Fits d thread) : Fits d rest ∧ ∀ new ∈ started, Fits d new := by
  rcases thread with _ | ⟨_ | _, items⟩
  case nil => cases taken
  case cons.unlock =>
    cases taken
    exact ⟨fits, by simp⟩
  case cons.run code =>
    obtain ⟨keeps, fits⟩ := fits
    cases code with
    | skip | read | write =>
      cases taken
      exact ⟨fits, by simp⟩
    | locked lock body =>
      rw [next] at taken
      split at taken <;> cases taken
      -- under the body lies the lock, so the body is run with it held
      exact ⟨⟨keeps.2, fits⟩, by simp⟩
    | seq first second =>
      cases taken
      exact ⟨⟨keeps.1, keeps.2, fits⟩, by simp⟩
    | either left right =>
      cases taken
      refine ⟨⟨?_, fits⟩, by simp⟩
      split
      · exact keeps.1
      · exact keeps.2
    | any branch =>
      cases taken
      exact ⟨⟨keeps choice, fits⟩, by simp⟩
    | loop body =>
      cases taken
      refine ⟨?_, by simp⟩
      split
      · exact fits
      · exact ⟨keeps, keeps, fits⟩
    | spawn lock body =>
      rw [next] at taken
      split at taken <;> cases taken
      refine ⟨fits, ?_⟩
      rintro _ ⟨⟩
      exact ⟨keeps.2, trivial⟩

/-- A thread that cannot go on has come to its end, or waits for a lock. -/
theorem wanted_of_next {free : κ → Bool} {choice : Nat} {thread : Thread κ ν}
    (stuck : next free choice thread = none) (unfinished : thread ≠ []) :
    ∃ lock, wanted thread = some lock ∧ free lock = false := by
  rcases thread with _ | ⟨_ | _, items⟩
  case nil => exact absurd rfl unfinished
  case cons.unlock => cases stuck
  case cons.run code =>
    cases code with
    | locked lock _ | spawn lock _ =>
      rw [next] at stuck
      split at stuck
      · cases stuck
      · exact ⟨lock, rfl, Bool.eq_false_iff.mpr ‹_›⟩
    | skip | read | write | seq | either | any | loop => cases stuck

/-- What a thread waits for ranks above all that it holds. -/
theorem Fits.above {thread : Thread κ ν} (fits : Fits d thread) {lock : κ} (waits : wanted thread = some lock) :
    d.Above (held thread) lock := by
  unfold wanted at waits
  split at waits <;> cases waits <;> exact fits.1.1

/-- A thread that holds a lock has still to give it back. -/
theorem ne_nil_of_mem_held {thread : Thread κ ν} {lock : κ} (holds : lock ∈ held thread) : thread ≠ [] := by
  rintro rfl
  cases holds

theorem Fits.guarded_read {thread : Thread κ ν} (fits : Fits d thread) {data : ν}
    (reads : AboutToRead data thread) : ∃ lock ∈ d.guards data, lock ∈ held thread := by
  obtain ⟨rest, rfl⟩ := List.head?_eq_some_iff.mp reads
  exact fits.1

theorem Fits.guarded_write {thread : Thread κ ν} (fits : Fits d thread) {data : ν}
    (writes : AboutToWrite data thread) : ∀ lock ∈ d.guards data, lock ∈ held thread := by
  obtain ⟨rest, rfl⟩ := List.head?_eq_some_iff.mp writes
  exact fits.1

/-- No data are left unguarded, so a writer holds one of the locks too. -/
theorem Fits.guarded {thread : Thread κ ν} (fits : Fits d thread) {data : ν}
    (comes : AboutToRead data thread ∨ AboutToWrite data thread) :
    ∃ lock ∈ d.guards data, lock ∈ held thread := by
  rcases comes with reads | writes
  · exact fits.guarded_read reads
  · obtain ⟨lock, guards⟩ := List.exists_mem_of_ne_nil _ (d.guarded data)
    exact ⟨lock, guards, fits.guarded_write writes lock guards⟩

/-! ### The system -/

/-- The system as it starts: one thread, for which nobody waits. -/
def launch (code : Code κ ν) : List (Thread κ ν) := [[.run code]]

theorem Sound.launch {code : Code κ ν} (keeps : code.Keeps d []) : Sound d (launch code) where
  fits := by
    intro thread member
    obtain rfl := List.mem_singleton.mp member
    exact ⟨keeps, trivial⟩
  apart := by
    intro i j first second _ there _ lock holds
    obtain rfl := List.mem_singleton.mp (List.mem_of_getElem? there)
    cases holds

/-- Where a thread of the next state comes from. -/
theorem getElem?_of_step {threads : List (Thread κ ν)} {i : Nat} {rest : Thread κ ν}
    {started : Option (Thread κ ν)} {j : Nat} {thread : Thread κ ν}
    (there : (threads.set i rest ++ started.toList)[j]? = some thread) :
    j = i ∧ thread = rest ∨ j ≠ i ∧ threads[j]? = some thread ∨
      j = threads.length ∧ started = some thread := by
  by_cases inside : j < (threads.set i rest).length
  · rw [List.getElem?_append_left inside, List.getElem?_set] at there
    split at there
    next same =>
      split at there <;> cases there
      exact .inl ⟨same.symm, rfl⟩
    next other => exact .inr (.inl ⟨fun same => other same.symm, there⟩)
  · rw [List.length_set, Nat.not_lt] at inside
    rw [List.getElem?_append_right (by simpa using inside), List.length_set] at there
    cases started with
    | none => cases there
    | some new =>
      obtain ⟨last, same⟩ := List.getElem?_eq_some_iff.mp there
      simp only [Option.toList, List.length_singleton] at last
      obtain rfl : j = threads.length := by omega
      simp only [Option.toList, Nat.sub_self, List.getElem_cons_zero] at same
      exact .inr (.inr ⟨rfl, by rw [same]⟩)

/-- Nobody comes in between where one writes. -/
theorem Sound.no_race {threads : List (Thread κ ν)} (sound : Sound d threads) : ¬Race threads := by
  rintro ⟨i, j, data, ne, ⟨writer, there, writes⟩, other, thereOther, comes⟩
  have otherFits := sound.fits other (List.mem_of_getElem? thereOther)
  obtain ⟨lock, guards, holds⟩ := otherFits.guarded comes
  have writerFits := sound.fits writer (List.mem_of_getElem? there)
  exact sound.apart i j writer other ne there thereOther lock (writerFits.guarded_write writes lock guards) holds

/-- Who waits for the lock of the greatest rank waits for a thread that does not wait. -/
theorem Sound.not_deadlock {threads : List (Thread κ ν)} (sound : Sound d threads) : ¬Deadlock threads := by
  rintro ⟨parties, some, waits⟩
  let wants (i : Nat) : Option κ := (threads[i]?).bind wanted
  obtain ⟨first, member⟩ := List.exists_mem_of_ne_nil parties some
  -- each of them wants a lock, so one of the locks ranks highest
  have wanting : ∀ i ∈ parties, ∃ lock, wants i = Option.some lock := by
    intro i inside
    obtain ⟨_, _, lock, ⟨thread, there, asks⟩, _⟩ := waits i inside
    exact ⟨lock, by simp [wants, there, asks]⟩
  obtain ⟨lock, asks⟩ := wanting first member
  have asked : parties.filterMap wants ≠ [] := List.ne_nil_of_mem (List.mem_filterMap.mpr ⟨first, member, asks⟩)
  obtain ⟨top, greatest⟩ : ∃ top, (parties.filterMap wants).argmax d.rank = Option.some top :=
    Option.ne_none_iff_exists'.mp fun none => asked (List.argmax_eq_none.mp none)
  obtain ⟨i, inside, wantsTop⟩ := List.mem_filterMap.mp (List.argmax_mem greatest)
  -- its holder is one of them, and wants a lock above it
  obtain ⟨j, insideToo, top', ⟨thread, there, asks'⟩, holder, holderThere, holds⟩ := waits i inside
  obtain rfl : top = top' := by simpa [wants, there, asks'] using wantsTop.symm
  obtain ⟨lock', wantsAbove⟩ := wanting j insideToo
  have asksAbove : wanted holder = Option.some lock' := by simpa [wants, holderThere] using wantsAbove
  have above := (sound.fits holder (List.mem_of_getElem? holderThere)).above asksAbove top holds
  have below := List.le_of_mem_argmax (List.mem_filterMap.mpr ⟨j, insideToo, wantsAbove⟩) greatest
  omega

variable [DecidableEq κ]

/-- No thread holds the lock. -/
def isFree (threads : List (Thread κ ν)) (lock : κ) : Bool :=
  threads.all fun thread => lock ∉ held thread

/-- A thread, and the way it turns, make a step of the system. -/
def step : Step (List (Thread κ ν)) (Nat × Nat) Empty := fun threads (i, choice) =>
  (threads[i]?).bind fun thread =>
    (next (isFree threads) choice thread).map fun (rest, started) =>
      ([], some (threads.set i rest ++ started.toList))

theorem step_eq_some {threads threads' : List (Thread κ ν)} {i choice : Nat} {did : List Empty}
    (taken : step threads (i, choice) = some (did, some threads')) :
    ∃ thread rest started, threads[i]? = some thread ∧
      next (isFree threads) choice thread = some (rest, started) ∧
      threads' = threads.set i rest ++ started.toList := by
  obtain ⟨thread, there, moved⟩ := Option.bind_eq_some_iff.mp taken
  obtain ⟨⟨rest, started⟩, went, same⟩ := Option.map_eq_some_iff.mp moved
  cases same
  exact ⟨thread, rest, started, there, went, rfl⟩

theorem not_mem_held_of_isFree {threads : List (Thread κ ν)} {lock : κ} (free : isFree threads lock = true)
    {i : Nat} {thread : Thread κ ν} (there : threads[i]? = some thread) : lock ∉ held thread := by
  have nobody := List.all_eq_true.mp free thread (List.mem_of_getElem? there)
  simpa using nobody

/-- Every step keeps the threads apart and to the discipline. -/
theorem Sound.kept {threads threads' : List (Thread κ ν)} (sound : Sound d threads) {action : Nat × Nat}
    {did : List Empty} (taken : step threads action = some (did, some threads')) :
    Sound d threads' := by
  obtain ⟨i, choice⟩ := action
  obtain ⟨thread, rest, started, there, went, rfl⟩ := step_eq_some taken
  obtain ⟨restFits, startedFits⟩ := fits_of_next went (sound.fits thread (List.mem_of_getElem? there))
  -- what the moved thread holds nobody else holds, for it had it before or it was free
  have alone : ∀ j other, j ≠ i → threads[j]? = some other → ∀ lock ∈ held rest, lock ∉ held other := by
    intro j other ne thereOther lock holds
    rcases mem_held_of_next went holds with before | free
    · exact sound.apart i j thread other ne.symm there thereOther lock before
    · exact not_mem_held_of_isFree free thereOther
  -- and the lock of a new thread nobody held
  have fresh : ∀ new, started = some new → ∀ lock ∈ held new, isFree threads lock = true ∧ lock ∉ held rest := by
    rintro new rfl lock holds
    obtain ⟨own, hasOwn, free, same⟩ := started_of_next went
    obtain rfl : lock = own := by simpa [hasOwn] using holds
    exact ⟨free, same ▸ not_mem_held_of_isFree free there⟩
  constructor
  · intro thread' member
    obtain ⟨j, there'⟩ := List.mem_iff_getElem?.mp member
    rcases getElem?_of_step there' with ⟨_, rfl⟩ | ⟨_, before⟩ | ⟨_, new⟩
    · exact restFits
    · exact sound.fits thread' (List.mem_of_getElem? before)
    · exact startedFits thread' new
  · intro j k first second ne thereFirst thereSecond lock holds holdsToo
    rcases getElem?_of_step thereFirst with ⟨rfl, rfl⟩ | ⟨neFirst, first'⟩ | ⟨atEnd, newFirst⟩
    · rcases getElem?_of_step thereSecond with ⟨rfl, _⟩ | ⟨neSecond, second'⟩ | ⟨_, newSecond⟩
      · exact ne rfl
      · exact alone k second neSecond second' lock holds holdsToo
      · exact (fresh second newSecond lock holdsToo).2 holds
    · rcases getElem?_of_step thereSecond with ⟨rfl, rfl⟩ | ⟨_, second'⟩ | ⟨_, newSecond⟩
      · exact alone j first neFirst first' lock holdsToo holds
      · exact sound.apart j k first second ne first' second' lock holds holdsToo
      · exact not_mem_held_of_isFree (fresh second newSecond lock holdsToo).1 first' holds
    · obtain ⟨free, notRest⟩ := fresh first newFirst lock holds
      rcases getElem?_of_step thereSecond with ⟨rfl, rfl⟩ | ⟨_, second'⟩ | ⟨atEnd', _⟩
      · exact notRest holdsToo
      · exact not_mem_held_of_isFree free second' holdsToo
      · exact ne (atEnd.trans atEnd'.symm)

/-- So somebody can go on as long as somebody has something to do, whichever way the code turns. -/
theorem Sound.progress {threads : List (Thread κ ν)} (sound : Sound d threads) (busy : ¬AllDone threads) :
    ∃ i, ∀ choice, (step threads (i, choice)).isSome = true := by
  by_contra! standstill
  have waits : ∀ (i : Nat) (thread : Thread κ ν), threads[i]? = some thread → thread ≠ [] →
      ∃ lock, wanted thread = some lock ∧ isFree threads lock = false := by
    intro i thread there unfinished
    obtain ⟨choice, stuck⟩ := standstill i
    rw [ne_eq, Option.not_isSome_iff_eq_none, step, there, Option.bind_some, Option.map_eq_none_iff] at stuck
    exact wanted_of_next stuck unfinished
  -- all that are unfinished would wait for one another
  let unfinished := (List.range threads.length).filter fun i => !(threads[i]?.getD []).isEmpty
  have among : ∀ (i : Nat) (thread : Thread κ ν), threads[i]? = some thread → thread ≠ [] → i ∈ unfinished := by
    intro i thread there some
    obtain ⟨inside, _⟩ := List.getElem?_eq_some_iff.mp there
    exact List.mem_filter.mpr ⟨List.mem_range.mpr inside, by simpa [there] using some⟩
  refine sound.not_deadlock ⟨unfinished, ?_, ?_⟩
  · obtain ⟨idle, member, some⟩ : ∃ thread ∈ threads, thread ≠ [] := by
      simpa [AllDone] using busy
    obtain ⟨i, there⟩ := List.mem_iff_getElem?.mp member
    exact List.ne_nil_of_mem (among i idle there some)
  · intro i member
    obtain ⟨inside, some⟩ := List.mem_filter.mp member
    obtain ⟨thread, there⟩ : ∃ thread, threads[i]? = Option.some thread :=
      ⟨_, List.getElem?_eq_getElem (List.mem_range.mp inside)⟩
    obtain ⟨lock, asks, taken⟩ := waits i thread there (by simpa [there] using some)
    obtain ⟨holder, isThere, holds⟩ : ∃ holder ∈ threads, lock ∈ held holder := by
      simpa [isFree] using taken
    obtain ⟨j, holderThere⟩ := List.mem_iff_getElem?.mp isThere
    exact ⟨j, among j holder holderThere (ne_nil_of_mem_held holds), lock, ⟨thread, there, asks⟩, holder, holderThere,
      holds⟩

/-- Where the code keeps to the discipline, so does every state it leads to. -/
theorem sound_of_reaches {code : Code κ ν} (keeps : code.Keeps d []) {threads : List (Thread κ ν)}
    (reached : Reaches step (launch code) threads) : Sound d threads := by
  obtain ⟨actions, trace, replayed⟩ := reached
  have meets : Meets step (fun _ _ => True) (launch code) actions := meets_of_forall (fun _ _ => trivial) _ _
  refine @Ran.invariant _ _ _ _ _ _ (fun _ threads => Sound d threads) (Sound.launch keeps) ?_ _ _
    (ran_of_replay meets replayed)
  intro _ s action did s' inv _ taken
  exact inv.kept taken

end Locks
