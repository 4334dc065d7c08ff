/-!
Levels of configuration, tried in order. A level answers with what it has, or
with an error that either says that it has nothing or stops the search.
-/

namespace Runnerd.Precedence

variable {ε α : Type} (skips : ε → Bool)

/-- The answer of the first level that is not skipped, else that of the last. -/
def firstConfigured : List (Except ε α) → Except ε α → Except ε α
  | [], last => last
  | .ok found :: _, _ => .ok found
  | .error err :: rest, last => if skips err then firstConfigured rest last else .error err

def Skipped (level : Except ε α) : Prop := ∃ err, level = .error err ∧ skips err = true

@[simp] theorem firstConfigured_nil (last : Except ε α) : firstConfigured skips [] last = last := rfl

@[simp] theorem firstConfigured_ok (found : α) (rest : List (Except ε α)) (last : Except ε α) :
    firstConfigured skips (.ok found :: rest) last = .ok found := rfl

theorem firstConfigured_error (err : ε) (rest : List (Except ε α)) (last : Except ε α) :
    firstConfigured skips (.error err :: rest) last =
      if skips err then firstConfigured skips rest last else .error err := rfl

variable {skips}

theorem firstConfigured_skipped {level : Except ε α} (rest : List (Except ε α))
    (last : Except ε α) (skipped : Skipped skips level) :
    firstConfigured skips (level :: rest) last = firstConfigured skips rest last := by
  obtain ⟨err, rfl, skip⟩ := skipped
  rw [firstConfigured_error, if_pos skip]

theorem firstConfigured_stands {level : Except ε α} (rest : List (Except ε α))
    (last : Except ε α) (stands : ¬ Skipped skips level) :
    firstConfigured skips (level :: rest) last = level := by
  cases level with
  | ok found => rfl
  | error err =>
      rw [firstConfigured_error, if_neg]
      exact fun skip => stands ⟨err, rfl, skip⟩

/-- Whatever comes after the level that decides makes no difference. -/
theorem firstConfigured_iff (levels : List (Except ε α)) (last answer : Except ε α) :
    firstConfigured skips levels last = answer ↔
      (∃ before after, levels = before ++ answer :: after ∧
        (∀ earlier ∈ before, Skipped skips earlier) ∧ ¬ Skipped skips answer) ∨
      (∀ level ∈ levels, Skipped skips level) ∧ last = answer := by
  induction levels with
  | nil => simp
  | cons level rest ih =>
      by_cases skipped : Skipped skips level
      · rw [firstConfigured_skipped rest last skipped, ih, List.forall_mem_cons]
        constructor
        · rintro (⟨before, after, rfl, earlier, stands⟩ | ⟨each, same⟩)
          · refine .inl ⟨level :: before, after, rfl, ?_, stands⟩
            exact List.forall_mem_cons.mpr ⟨skipped, earlier⟩
          · exact .inr ⟨⟨skipped, each⟩, same⟩
        · rintro (⟨before, after, split, earlier, stands⟩ | ⟨each, same⟩)
          · cases before with
            | nil =>
                cases split
                exact absurd skipped stands
            | cons first others =>
                cases split
                exact .inl ⟨others, after, rfl,
                  fun level member => earlier level (List.mem_cons_of_mem _ member), stands⟩
          · exact .inr ⟨each.2, same⟩
      · rw [firstConfigured_stands rest last skipped]
        constructor
        · rintro rfl
          exact .inl ⟨[], rest, rfl, by simp, skipped⟩
        · rintro (⟨before, after, split, earlier, stands⟩ | ⟨each, same⟩)
          · cases before with
            | nil => exact (List.cons.inj split).1
            | cons first others =>
                cases split
                exact absurd (earlier level List.mem_cons_self) skipped
          · exact absurd (each level List.mem_cons_self) skipped

/-- A value comes from one of the levels, or from the last. -/
theorem mem_of_firstConfigured {levels : List (Except ε α)} {last : Except ε α} {found : α}
    (first : firstConfigured skips levels last = .ok found) :
    Except.ok found ∈ levels ∨ last = .ok found := by
  rcases (firstConfigured_iff levels last _).mp first with ⟨before, after, rfl, _, _⟩ | ⟨_, same⟩
  · exact .inl (by simp)
  · exact .inr same

end Runnerd.Precedence
