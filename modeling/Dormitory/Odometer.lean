import Mathlib.Data.List.Induction
import Dormitory.Table

/-!
# A running counter

Records of a counter, entered in any order of time: each has the value it shows
and the value it follows on from. The records form a chain when each follows on
from the one before it in time; what is counted between them then sums to the
last value, and `chained_insert_iff` says which new records keep the chain.
-/

namespace Dormitory

section latest
variable {R : Type} {f : R → Int}

theorem findLatest_append (rows : List R) (x : R) :
    findLatest f (rows ++ [x]) =
      if (findLatest f rows).any fun b => f x ≤ f b then findLatest f rows else some x := by
  unfold findLatest
  rw [List.foldl_append]
  rfl

/-- The latest is one that none exceeds. -/
theorem findLatest_spec (rows : List R) :
    findLatest f rows = none ∧ rows = [] ∨
      ∃ b ∈ rows, findLatest f rows = some b ∧ ∀ x ∈ rows, f x ≤ f b := by
  induction rows using List.reverseRecOn with
  | nil => exact .inl ⟨rfl, rfl⟩
  | append_singleton rows x ih =>
    right
    rw [findLatest_append]
    rcases ih with ⟨none, rfl⟩ | ⟨b, hb, latest, above⟩
    · exact ⟨x, by simp, by simp [none], by simp⟩
    · by_cases covered : f x ≤ f b
      · refine ⟨b, by simp [hb], by simp [latest, covered], fun y hy => ?_⟩
        rcases List.mem_append.mp hy with old | new
        · exact above y old
        · rwa [List.mem_singleton.mp new]
      · refine ⟨x, by simp, by simp [latest, covered], fun y hy => ?_⟩
        rcases List.mem_append.mp hy with old | new
        · have := above y old
          omega
        · rw [List.mem_singleton.mp new]

end latest

namespace Odometer
variable {R : Type} (time value prev : R → Int)

/-- The value that the last record shows, 0 when there is none. -/
def shown (rows : List R) : Int := ((findLatest time rows).map value).getD 0

def shownBefore (rows : List R) (t : Int) : Int :=
  shown time value (rows.filter fun r => time r < t)

/-- Each record follows on from the one before it. -/
def Chained (rows : List R) : Prop := ∀ r ∈ rows, prev r = shownBefore time value rows (time r)

variable {time value prev} {rows : List R}

theorem shownBefore_congr {rows' : List R} {t t' : Int}
    (same : rows.filter (fun r => time r < t) = rows'.filter fun r => time r < t') :
    shownBefore time value rows t = shownBefore time value rows' t' := by
  unfold shownBefore
  rw [same]

/-- **What is counted** from record to record sums to the last value. -/
theorem sum_chained (apart : (rows.map time).Nodup) (chained : Chained time value prev rows) :
    (rows.map fun r => value r - prev r).sum = shown time value rows := by
  induction size : rows.length generalizing rows with
  | zero =>
    rw [List.length_eq_zero_iff.mp size]
    rfl
  | succ n ih =>
    rcases findLatest_spec (f := time) rows with ⟨-, rfl⟩ | ⟨b, hb, latest, above⟩
    · cases size
    obtain ⟨before, after, rfl⟩ := List.append_of_mem hb
    have sub : (before ++ after).Sublist (before ++ b :: after) :=
      (List.Sublist.refl _).append (List.sublist_cons_self _ _)
    have others : ∀ r ∈ before ++ after, time r < time b := by
      intro r hr
      have last : time b ∉ (before ++ after).map time := by
        rw [List.map_append, List.map_cons] at apart
        rw [List.map_append]
        exact (List.nodup_middle.mp apart).notMem
      have ne : time r ≠ time b := fun same => last (same ▸ List.mem_map_of_mem hr)
      have := above r (sub.subset hr)
      omega
    have drop : ∀ t ≤ time b, (before ++ b :: after).filter (fun r => time r < t) =
        (before ++ after).filter fun r => time r < t := by
      intro t ht
      rw [List.filter_append, List.filter_append, List.filter_cons_of_neg (by simpa using ht)]
    -- Without its last record, the rest is a chain.
    have chained' : Chained time value prev (before ++ after) := by
      intro r hr
      rw [chained r (sub.subset hr), shownBefore_congr (drop _ (others r hr).le)]
    have rest := ih (apart.sublist (sub.map time)) chained' (by simp at size ⊢; omega)
    have follows : prev b = shown time value (before ++ after) := by
      rw [chained b hb, shownBefore_congr (drop _ le_rfl), shownBefore, List.filter_eq_self.mpr]
      exact fun r hr => by simpa using others r hr
    rw [shown, latest, Option.map_some, Option.getD_some]
    simp only [List.map_append, List.map_cons, List.sum_append, List.sum_cons] at rest ⊢
    omega

/-! ## A new record -/

section insert
variable {x : R}

theorem shownBefore_insert_ge {t : Int} (le : t ≤ time x) :
    shownBefore time value (rows ++ [x]) t = shownBefore time value rows t := by
  refine shownBefore_congr ?_
  rw [List.filter_append, List.filter_cons_of_neg (by simpa using le), List.filter_nil,
    List.append_nil]

/-- After the new record, its value shows until the next one. -/
theorem shownBefore_insert_lt {t : Int} (lt : time x < t) :
    shownBefore time value (rows ++ [x]) t =
      if ∃ r ∈ rows, time x ≤ time r ∧ time r < t then shownBefore time value rows t
      else value x := by
  have filtered : (rows ++ [x]).filter (fun r => time r < t) =
      rows.filter (fun r => time r < t) ++ [x] := by
    rw [List.filter_append, List.filter_cons_of_pos (by simpa using lt), List.filter_nil]
  rw [shownBefore, filtered, shown, findLatest_append]
  rcases findLatest_spec (f := time) (rows.filter fun r => time r < t) with
    ⟨none, empty⟩ | ⟨b, hb, latest, above⟩
  · rw [if_neg (by simp [none]), if_neg]
    · rfl
    · rintro ⟨r, hr, -, before⟩
      have : r ∈ rows.filter fun r => time r < t := List.mem_filter.mpr ⟨hr, by simpa using before⟩
      rw [empty] at this
      cases this
  · obtain ⟨old, before⟩ := List.mem_filter.mp hb
    by_cases covered : time x ≤ time b
    · rw [if_pos (by simpa [latest] using covered), if_pos ⟨b, old, covered, by simpa using before⟩]
      rfl
    · rw [if_neg (by simpa [latest] using covered), if_neg]
      · rfl
      · rintro ⟨r, hr, ge, lt'⟩
        have := above r (List.mem_filter.mpr ⟨hr, by simpa using lt'⟩)
        omega

/-- Nothing is recorded from one time to the other. -/
theorem shownBefore_gap {t t' : Int} (le : t ≤ t')
    (gap : ∀ r ∈ rows, t ≤ time r → t' ≤ time r) :
    shownBefore time value rows t' = shownBefore time value rows t := by
  refine shownBefore_congr (List.filter_congr fun r hr => ?_)
  have := gap r hr
  simp only [decide_eq_decide]
  omega

/-- **A new record** that follows on from the one before it keeps the chain
exactly when it is the last one, or shows what the one before it shows. -/
theorem chained_insert_iff (chained : Chained time value prev rows)
    (new : ∀ r ∈ rows, time r ≠ time x) (follows : prev x = shownBefore time value rows (time x)) :
    Chained time value prev (rows ++ [x]) ↔
      ((∃ r ∈ rows, time x < time r) → value x = shownBefore time value rows (time x)) := by
  constructor
  · rintro chained' ⟨r, hr, later⟩
    -- The next record after the new one tells.
    rcases findLatest_spec (f := fun r => -time r) (rows.filter fun r => time x < time r) with
      ⟨-, empty⟩ | ⟨next, hnext, -, first⟩
    · exact absurd later (by simpa using List.filter_eq_nil_iff.mp empty r hr)
    obtain ⟨old, after⟩ := List.mem_filter.mp hnext
    simp only [decide_eq_true_eq] at after
    have gap : ∀ r ∈ rows, time x ≤ time r → time next ≤ time r := by
      intro r hr ge
      have ne := new r hr
      have := first r (List.mem_filter.mpr ⟨hr, by simp only [decide_eq_true_eq]; omega⟩)
      omega
    have between : ¬∃ r ∈ rows, time x ≤ time r ∧ time r < time next :=
      fun ⟨r, hr, ge, lt⟩ => absurd (gap r hr ge) (by omega)
    calc value x = shownBefore time value (rows ++ [x]) (time next) := by
          rw [shownBefore_insert_lt after, if_neg between]
      _ = prev next := (chained' next (by simp [old])).symm
      _ = shownBefore time value rows (time next) := chained next old
      _ = shownBefore time value rows (time x) := shownBefore_gap after.le gap
  · intro same r hr
    rcases List.mem_append.mp hr with old | isNew
    · rcases Int.lt_or_lt_of_ne (new r old) with before | after
      · rw [shownBefore_insert_ge before.le, chained r old]
      · rw [shownBefore_insert_lt after]
        split
        · exact chained r old
        · rename_i between
          rw [chained r old, same ⟨r, old, after⟩]
          refine shownBefore_gap after.le fun r' hr' ge => ?_
          by_contra lt
          exact between ⟨r', hr', ge, by omega⟩
    · rw [List.mem_singleton.mp isNew, shownBefore_insert_ge le_rfl, follows]

end insert
end Odometer
end Dormitory
