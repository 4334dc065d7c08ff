import Mathlib.Data.List.Basic

/-!
How often the completion of a job is counted, without the store and without
the services. A completion that finds the job underway ends it and counts. One
that finds it ended counts only if the job had not been noted as the runner's
before, and one that finds it failed ends it again.
-/

namespace Runnerd

/-- What an event means for the count. A process that fails while GitHub still
reports its runner as busy leaves the job underway; `forgets` when its note
overwrites that of the job. -/
inductive JobNews where
  | started
  | finished
  | exitedCleanly
  | exitedFailing
  | kept (forgets : Bool)
  deriving DecidableEq, Repr

inductive JobPhase where
  | underway
  | completed
  | failed
  deriving DecidableEq, Repr

/-- `stale` when a failure is on record that a completion does not clear,
`noted` when the job is on record as the runner's. -/
structure JobCount where
  phase : JobPhase
  stale : Bool
  noted : Bool
  recorded : Nat
  deriving DecidableEq, Repr

namespace JobCount

def step (count : JobCount) : JobNews → JobCount
  | .started => if count.phase = .completed then count else { count with noted := true }
  | .finished =>
      if count.phase = .completed then
        if count.noted then count else { count with noted := true, recorded := count.recorded + 1 }
      else
        { count with
          phase := if count.stale then .failed else .completed
          noted := true
          recorded := count.recorded + 1 }
  | .exitedCleanly => if count.phase = .underway then { count with phase := .completed } else count
  | .exitedFailing =>
      if count.phase = .underway then { count with phase := .failed, stale := true } else count
  | .kept forgets =>
      if count.phase = .underway then { count with noted := count.noted && !forgets } else count

def run (count : JobCount) (news : List JobNews) : JobCount := news.foldl step count

end JobCount

section Orders

/-- Whether the news ends what is underway. -/
def JobNews.decides : JobNews → Bool
  | .finished | .exitedCleanly | .exitedFailing => true
  | .started | .kept _ => false

def JobNews.notes (noted : Bool) : JobNews → Bool
  | .started => true
  | .kept forgets => noted && !forgets
  | _ => noted

/-- Whether the job is on record when the first decisive news comes. -/
def notedBefore (noted : Bool) (news : List JobNews) : Bool :=
  (news.takeWhile fun item => !item.decides).foldl JobNews.notes noted

def CountsOnce (stale noted : Bool) (news : List JobNews) : Prop :=
  news.find? JobNews.decides = some .finished ∧ (stale = false ∨ news.count .finished = 1) ∨
    news.find? JobNews.decides = some .exitedCleanly ∧ notedBefore noted news = false ∨
    news.find? JobNews.decides = some .exitedFailing ∧ news.count .finished = 1

instance (stale noted : Bool) (news : List JobNews) : Decidable (CountsOnce stale noted news) :=
  inferInstanceAs (Decidable (_ ∧ _ ∨ _ ∧ _ ∨ _ ∧ _))

end Orders

namespace JobCount

theorem step_unnoted {count : JobCount} (ended : count.phase = .completed)
    (unnoted : count.noted = false) :
    count.step .finished = { count with noted := true, recorded := count.recorded + 1 } := by
  simp [step, ended, unnoted]

theorem step_ends {count : JobCount} (open_ : count.phase ≠ .completed) :
    count.step .finished =
      { count with
        phase := if count.stale then .failed else .completed
        noted := true
        recorded := count.recorded + 1 } := by
  simp [step, open_]

theorem step_notes (count : JobCount) : (count.step .finished).noted = true := by
  simp only [step]
  split
  · split
    · assumption
    · rfl
  · rfl

theorem run_cons (count : JobCount) (item : JobNews) (news : List JobNews) :
    count.run (item :: news) = (count.step item).run news := rfl

/-- A completed job on record is counted no more. -/
theorem run_settled (news : List JobNews) (count : JobCount) (ended : count.phase = .completed)
    (noted : count.noted = true) : count.run news = count := by
  induction news with
  | nil => rfl
  | cons item rest ih =>
      have same : count.step item = count := by
        cases item <;> simp [step, ended, noted]
      rw [run_cons, same, ih]

/-- One that is not on record is counted by the first delivery. -/
theorem run_unnoted (news : List JobNews) (count : JobCount) (ended : count.phase = .completed)
    (unnoted : count.noted = false) (delivered : .finished ∈ news) :
    (count.run news).recorded = count.recorded + 1 := by
  induction news with
  | nil => cases delivered
  | cons item rest ih =>
      by_cases finished : item = .finished
      · subst finished
        rw [run_cons, step_unnoted ended unnoted, run_settled]
        · exact ended
        · rfl
      · have same : count.step item = count := by
          cases item <;> simp_all [step]
        rw [run_cons, same]
        exact ih (List.mem_of_ne_of_mem (Ne.symm finished) delivered)

/-- A failed job is counted by every delivery. -/
theorem run_failed (news : List JobNews) (count : JobCount) (failed : count.phase = .failed)
    (stale : count.stale = true) :
    (count.run news).recorded = count.recorded + news.count .finished := by
  induction news generalizing count with
  | nil => rfl
  | cons item rest ih =>
      have stays : (count.step item).phase = .failed ∧ (count.step item).stale = true := by
        cases item <;> simp [step, failed, stale]
      rw [run_cons, ih _ stays.1 stays.2]
      cases item <;> simp [step, failed]
      omega

theorem run_underway (news : List JobNews) (count : JobCount) (underway : count.phase = .underway)
    (delivered : .finished ∈ news) :
    (count.run news).recorded = count.recorded + 1 ↔ CountsOnce count.stale count.noted news := by
  induction news generalizing count with
  | nil => cases delivered
  | cons item rest ih =>
      rw [run_cons]
      cases item with
      | started =>
          rw [show count.step .started = { count with noted := true } by simp [step, underway],
            ih { count with noted := true } underway (by simpa using delivered)]
          simp [CountsOnce, notedBefore, JobNews.decides, JobNews.notes]
      | kept forgets =>
          rw [show count.step (.kept forgets) = { count with noted := count.noted && !forgets } by
              simp [step, underway],
            ih { count with noted := count.noted && !forgets } underway (by simpa using delivered)]
          simp [CountsOnce, notedBefore, JobNews.decides, JobNews.notes]
      | finished =>
          by_cases stale : count.stale = true
          · rw [run_failed rest _ (by simp [step, underway, stale]) (by simp [step, underway, stale])]
            simp [step, underway, CountsOnce, List.find?_cons, JobNews.decides, stale]
          · rw [run_settled rest _ (by simp [step, underway, stale]) (by simp [step, underway])]
            simp [step, underway, CountsOnce, List.find?_cons, JobNews.decides, stale]
      | exitedFailing =>
          rw [run_failed rest _ (by simp [step, underway]) (by simp [step, underway])]
          simp [step, underway, CountsOnce, List.find?_cons, JobNews.decides]
      | exitedCleanly =>
          by_cases noted : count.noted = true
          · rw [run_settled rest _ (by simp [step, underway]) (by simp [step, underway, noted])]
            simp [step, underway, CountsOnce, List.find?_cons, JobNews.decides, notedBefore, noted]
          · rw [run_unnoted rest _ (by simp [step, underway]) (by simp [step, underway, noted])
              (by simpa using delivered)]
            simp [step, underway, CountsOnce, List.find?_cons, JobNews.decides, notedBefore, noted]

end JobCount

end Runnerd
