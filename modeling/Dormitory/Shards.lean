import Dormitory.Owners

/-!
# The rows of one owner

A table cut down to the rows of one owner. Where the key of every row tells its
owner, looking up and storing the rows of an owner is the same in the table and in
its part.
-/

namespace Dormitory.Table
variable {R K O : Type} [Keyed R K] [DecidableEq O]

theorem ext_rows {t t' : Table R} (same : t.rows = t'.rows) : t = t' := by
  cases t
  cases t'
  cases same
  rfl

/-- The rows of the owner. -/
def shard (owner : R → O) (o : O) (t : Table R) : Table R :=
  ⟨t.rows.filter fun r => owner r = o, (List.filter_sublist.map key).nodup t.distinct⟩

/-- Each row satisfies `P`, and its key tells its owner. -/
structure Housed (home : K → O) (owner : R → O) (P : R → Prop) (t : Table R) : Prop where
  keys : ∀ r ∈ t.rows, home (key r) = owner r
  rows : ∀ r ∈ t.rows, P r

variable {home : K → O} {owner : R → O} {P : R → Prop} {t : Table R} {o o' : O} {k : K} {r : R}

theorem mem_shard : r ∈ (t.shard owner o).rows ↔ r ∈ t.rows ∧ owner r = o := by
  simp [shard]

theorem Housed.part (housed : t.Housed home owner P) (o : O) :
    (t.shard owner o).Housed home owner P :=
  ⟨fun r hr => housed.keys r (mem_shard.mp hr).1, fun r hr => housed.rows r (mem_shard.mp hr).1⟩

omit [DecidableEq O] in
theorem housed_default : (default : Table R).Housed home owner P :=
  ⟨fun _ hr => (nomatch hr), fun _ hr => (nomatch hr)⟩

omit [DecidableEq O] in
theorem Housed.map {R' : Type} [Keyed R' K] {owner' : R' → O} {Q : R' → Prop}
    (housed : t.Housed home owner P) (f : R → R') (same : ∀ r, key (f r) = key r)
    (owns : ∀ r, owner' (f r) = owner r) (fits : ∀ r, P r → Q (f r)) :
    (t.map f same).Housed home owner' Q := by
  constructor
  · intro x hx
    obtain ⟨r, hr, rfl⟩ := List.mem_map.mp hx
    rw [same, owns]
    exact housed.keys r hr
  · intro x hx
    obtain ⟨r, hr, rfl⟩ := List.mem_map.mp hx
    exact fits r (housed.rows r hr)

@[simp] theorem shard_shard : (t.shard owner o).shard owner o = t.shard owner o := by
  refine ext_rows ?_
  simp only [shard, List.filter_filter, Bool.and_self]

theorem shard_shard_ne (apart : o ≠ o') : (t.shard owner o).shard owner o' = default := by
  refine ext_rows (List.filter_eq_nil_iff.mpr fun r hr => ?_)
  simpa using fun mine => apart ((mem_shard.mp hr).2.symm.trans mine)

@[simp] theorem shard_default : (default : Table R).shard owner o = default := rfl

/-- The part of a mapped table. -/
theorem shard_map {R' : Type} [Keyed R' K] {owner' : R' → O} (f : R → R')
    (same : ∀ r, key (f r) = key r) (owns : ∀ r, owner' (f r) = owner r) :
    (t.map f same).shard owner' o = (t.shard owner o).map f same := by
  refine ext_rows ?_
  simp only [shard, Table.map, List.filter_map, Function.comp_def, owns]

/-! ## Searches for what only rows of the owner have -/

section search
variable {Q : R → Prop} [DecidablePred Q]

theorem filter_shard (mine : ∀ r ∈ t.rows, Q r → owner r = o) :
    (t.shard owner o).rows.filter (fun r => Q r) = t.rows.filter fun r => Q r := by
  simp only [shard, List.filter_filter]
  refine List.filter_congr fun r hr => ?_
  by_cases holds : Q r
  · simp [holds, mine r hr holds]
  · simp [holds]

theorem search_shard (mine : ∀ r ∈ t.rows, Q r → owner r = o) :
    (t.shard owner o).rows.find? (fun r => Q r) = t.rows.find? fun r => Q r := by
  simp only [shard, List.find?_filter]
  refine List.find?_congr fun r hr => ?_
  by_cases holds : Q r
  · simp [holds, mine r hr holds]
  · simp [holds]

omit [DecidablePred Q] in
theorem exists_shard (mine : ∀ r ∈ t.rows, Q r → owner r = o) :
    (∃ r ∈ (t.shard owner o).rows, Q r) ↔ ∃ r ∈ t.rows, Q r := by
  constructor
  · rintro ⟨r, hr, holds⟩
    exact ⟨r, (mem_shard.mp hr).1, holds⟩
  · rintro ⟨r, hr, holds⟩
    exact ⟨r, mem_shard.mpr ⟨hr, mine r hr holds⟩, holds⟩

theorem filterMap_shard {β : Type} {f : R → Option β}
    (mine : ∀ r ∈ t.rows, owner r ≠ o → f r = none) :
    (t.shard owner o).rows.filterMap f = t.rows.filterMap f := by
  simp only [shard, List.filterMap_filter]
  refine List.filterMap_congr fun r hr => ?_
  by_cases here : owner r = o
  · simp [here]
  · simp [here, mine r hr here]

end search

/-! ## Keys -/

variable [DecidableEq K]

/-- Storing a row leaves the rows with `Q` as they are, if neither the new row nor the
one it replaces has `Q`. -/
theorem filter_put_of_not {Q : R → Prop} [DecidablePred Q] (new : ¬Q r)
    (old : ∀ x ∈ t.rows, key x = key r → ¬Q x) :
    (t.put r).rows.filter (fun x => Q x) = t.rows.filter fun x => Q x := by
  change (putRows r t.rows).filter _ = t.rows.filter _
  unfold putRows
  by_cases taken : key r ∈ t.rows.map key
  · rw [if_pos taken, List.filter_map]
    have same : ∀ x ∈ t.rows,
        ((fun x => decide (Q x)) ∘ fun x => if key x = key r then r else x) x = decide (Q x) := by
      intro x hx
      by_cases replaced : key x = key r
      · simp [replaced, new, old x hx replaced]
      · simp [replaced]
    rw [List.filter_congr same, List.map_congr_left (g := id), List.map_id]
    intro x hx
    obtain ⟨stored, holds⟩ := List.mem_filter.mp hx
    exact if_neg fun replaced => old x stored replaced (of_decide_eq_true holds)
  · rw [if_neg taken, List.filter_append, List.filter_cons_of_neg (by simpa using new),
      List.filter_nil, List.append_nil]

theorem find?_shard : (t.shard owner o).find? k = (t.find? k).filter fun r => owner r = o := by
  refine Option.ext fun r => ?_
  rw [find?_eq_some_iff, mem_shard, Option.filter_eq_some_iff, find?_eq_some_iff,
    decide_eq_true_iff]
  tauto

/-- The part has the row that the table has, where the key is the owner's. -/
theorem Housed.find? (housed : t.Housed home owner P) (here : home k = o) :
    (t.shard owner o).find? k = t.find? k := by
  rw [find?_shard]
  cases found : t.find? k with
  | none => rfl
  | some r =>
    refine Option.filter_eq_some_iff.mpr ⟨rfl, ?_⟩
    rw [decide_eq_true_iff, ← here, ← find?_key found]
    exact (housed.keys r (find?_mem found)).symm

/-- A lookup that hides the rows of others finds the same in the part. -/
theorem filter_find?_shard :
    ((t.shard owner o).find? k).filter (fun r => owner r = o) =
      (t.find? k).filter fun r => owner r = o := by
  rw [find?_shard, Option.filter_filter]
  simp only [Bool.and_self]

omit [DecidableEq O] in
theorem Housed.put (housed : t.Housed home owner P) (here : home (key r) = owner r) (fits : P r) :
    (t.put r).Housed home owner P := by
  constructor
  · intro x hx
    rcases mem_put.mp hx with rfl | ⟨old, -⟩
    · exact here
    · exact housed.keys x old
  · intro x hx
    rcases mem_put.mp hx with rfl | ⟨old, -⟩
    · exact fits
    · exact housed.rows x old

/-- A row of the owner is stored in its part. -/
theorem Housed.shard_put (housed : t.Housed home owner P) (here : home (key r) = owner r)
    (mine : owner r = o) : (t.put r).shard owner o = (t.shard owner o).put r := by
  refine ext_rows ?_
  have own : ∀ x ∈ t.rows, key x = key r → owner x = o := by
    intro x hx same
    rw [← housed.keys x hx, same, here, mine]
  have taken : key r ∈ t.rows.map key ↔ key r ∈ (t.rows.filter fun x => owner x = o).map key := by
    simp only [List.mem_map, List.mem_filter, decide_eq_true_eq]
    constructor
    · rintro ⟨x, hx, same⟩
      exact ⟨x, ⟨hx, own x hx same⟩, same⟩
    · rintro ⟨x, ⟨hx, -⟩, same⟩
      exact ⟨x, hx, same⟩
  change (putRows r t.rows).filter _ = putRows r (t.rows.filter _)
  unfold putRows
  by_cases old : key r ∈ t.rows.map key
  · rw [if_pos old, if_pos (taken.mp old), List.filter_map]
    -- Replacing a row keeps its owner.
    have same : ∀ x ∈ t.rows,
        ((fun x => decide (owner x = o)) ∘ fun x => if key x = key r then r else x) x =
          decide (owner x = o) := by
      intro x hx
      by_cases replaced : key x = key r
      · simp [replaced, mine, own x hx replaced]
      · simp [replaced]
    rw [List.filter_congr same]
  · rw [if_neg old, if_neg fun new => old (taken.mpr new), List.filter_append,
      List.filter_cons_of_pos (by simpa using mine), List.filter_nil]

/-- A row of another owner is stored outside. -/
theorem Housed.shard_put_ne (housed : t.Housed home owner P) (here : home (key r) = owner r)
    (other : owner r ≠ o) : (t.put r).shard owner o = t.shard owner o := by
  refine ext_rows (filter_put_of_not other fun x hx same => ?_)
  rw [← housed.keys x hx, same, here]
  exact other

end Dormitory.Table
