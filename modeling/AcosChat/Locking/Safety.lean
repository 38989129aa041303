import AcosChat.Locking.Server
import AcosChat.Locking.Client

/-!
# No deadlocks, no races

Both programs take their mutexes in the order of their ranks, joins among them, and come to the
data of a map, a queue, a vector or the log only with what guards them. So whatever the threads
do, mutexes and joins never make them wait for one another, and none comes to data that another
one changes. That a loop goes on for ever is not excluded.
-/
namespace AcosChat.Locking

open Locks Run Mutex

/-- The server and the client. -/
def programs : List LockCode := [Server.main, Client.main]

theorem keeps_programs : ∀ program ∈ programs, program.Keeps discipline [] := by
  simp [programs, Server.keeps_main, Client.keeps_main]

/-- The server as it starts up: its first thread creates the other two, and the controller
creates a worker. -/
def startUp : List (Nat × Nat) :=
  List.replicate 211 (0, 0) ++ List.replicate 5 (1, 0) ++ [(1, 1)] ++ List.replicate 18 (1, 0) ++
    [(1, 1)] ++ List.replicate 3 (1, 0)

theorem reaches_worker : ∃ threads, Reaches step (launch Server.main) threads ∧ threads.length = 4 := by
  have four : (replay step (launch Server.main) startUp).map (fun last => last.2.length) = some 4 := by
    decide +kernel
  obtain ⟨⟨trace, threads⟩, replayed, length⟩ := Option.map_eq_some_iff.mp four
  exact ⟨threads, ⟨startUp, trace, replayed⟩, length⟩

/-- However far the threads have come, no number of them wait for mutexes that they hold, or to
join one another; so one of them can go on, unless all have ended. -/
theorem no_deadlock {program : LockCode} (isProgram : program ∈ programs)
    {threads : List (Locks.Thread Mutex Mutex)} (reached : Reaches step (launch program) threads) :
    ¬Deadlock threads ∧ (¬AllDone threads → ∃ i, ∀ choice, (step threads (i, choice)).isSome = true) := by
  have sound := sound_of_reaches (keeps_programs program isProgram) reached
  exact ⟨sound.not_deadlock, sound.progress⟩

theorem no_deadlock_worker : ∃ threads, Reaches step (launch Server.main) threads ∧ threads.length = 4 ∧
    ¬Deadlock threads ∧ (¬AllDone threads → ∃ i, ∀ choice, (step threads (i, choice)).isSome = true) := by
  obtain ⟨threads, reached, four⟩ := reaches_worker
  exact ⟨threads, reached, four, no_deadlock (.head _) reached⟩

/-- No two threads come to the same map, queue, vector or log at once, if one of them changes it. -/
theorem no_data_race {program : LockCode} (isProgram : program ∈ programs)
    {threads : List (Locks.Thread Mutex Mutex)} (reached : Reaches step (launch program) threads) :
    ¬Race threads :=
  (sound_of_reaches (keeps_programs program isProgram) reached).no_race

theorem no_data_race_worker : ∃ threads, Reaches step (launch Server.main) threads ∧ threads.length = 4 ∧
    ¬Race threads := by
  obtain ⟨threads, reached, four⟩ := reaches_worker
  exact ⟨threads, reached, four, no_data_race (.head _) reached⟩

end AcosChat.Locking
