import Mathlib.Algebra.BigOperators.Group.List.Basic
import Mathlib.Algebra.Ring.Int.Defs
import Mathlib.Data.List.Find
import Mathlib.Data.List.Nodup

/-!
# Tables

A table is a list of rows no two of which share a key; the field `distinct`
carries that, so a table with a duplicated primary key cannot be built. `put`
stores a row under its key, in place of the row that had it.
-/

namespace Dormitory

class Keyed (R : Type) (K : outParam Type) where
  key : R → K

export Keyed (key)

structure Table (R : Type) {K : Type} [Keyed R K] where
  rows : List R
  distinct : (rows.map key).Nodup

/-- `findFirst` under `orderBy: desc`: the first row with the largest `f`. -/
def findLatest {R : Type} (f : R → Int) (rows : List R) : Option R :=
  rows.foldl (fun best x => if best.any fun b => f x ≤ f b then best else some x) none

namespace Table
variable {R K : Type} [Keyed R K]

instance : Inhabited (Table R) := ⟨⟨[], List.nodup_nil⟩⟩

theorem key_inj (t : Table R) {x y : R} (hx : x ∈ t.rows) (hy : y ∈ t.rows) (h : key x = key y) :
    x = y := List.inj_on_of_nodup_map t.distinct hx hy h

variable [DecidableEq K]

def find? (t : Table R) (k : K) : Option R := t.rows.find? fun r => key r = k

/-- The rows after storing `r`. -/
def putRows (r : R) (rows : List R) : List R :=
  if key r ∈ rows.map key then rows.map fun x => if key x = key r then r else x
  else rows ++ [r]

theorem putRows_keys (r : R) (rows : List R) :
    (putRows r rows).map key =
      if key r ∈ rows.map key then rows.map key else rows.map key ++ [key r] := by
  unfold putRows
  split
  · rw [List.map_map]
    apply List.map_congr_left
    intro x _
    by_cases hx : key x = key r <;> simp [hx]
  · simp

theorem putRows_distinct (r : R) {rows : List R} (h : (rows.map key).Nodup) :
    ((putRows r rows).map key).Nodup := by
  rw [putRows_keys]
  split
  · exact h
  · rename_i hr
    exact h.append (List.nodup_singleton _) (by simpa [List.disjoint_singleton] using hr)

def put (t : Table R) (r : R) : Table R := ⟨putRows r t.rows, putRows_distinct r t.distinct⟩

theorem find?_mem {t : Table R} {k : K} {r : R} (h : t.find? k = some r) : r ∈ t.rows :=
  List.mem_of_find?_eq_some h

theorem find?_key {t : Table R} {k : K} {r : R} (h : t.find? k = some r) : key r = k := by
  simpa using List.find?_some h

theorem find?_of_mem {t : Table R} {r : R} (h : r ∈ t.rows) : t.find? (key r) = some r := by
  cases hf : t.find? (key r) with
  | none => simpa using List.find?_eq_none.1 hf r h
  | some x => rw [t.key_inj (find?_mem hf) h (find?_key hf)]

theorem find?_eq_some_iff {t : Table R} {k : K} {r : R} :
    t.find? k = some r ↔ r ∈ t.rows ∧ key r = k := by
  constructor
  · intro h; exact ⟨find?_mem h, find?_key h⟩
  · rintro ⟨h, rfl⟩; exact find?_of_mem h

theorem find?_eq_none_iff {t : Table R} {k : K} : t.find? k = none ↔ k ∉ t.rows.map key := by
  simp [find?]

theorem mem_put {t : Table R} {r x : R} :
    x ∈ (t.put r).rows ↔ x = r ∨ (x ∈ t.rows ∧ key x ≠ key r) := by
  simp only [put, putRows]
  split
  · rename_i h
    simp only [List.mem_map] at h ⊢
    constructor
    · rintro ⟨y, hy, rfl⟩
      by_cases hk : key y = key r <;> simp [hk, hy]
    · rintro (rfl | ⟨hx, hk⟩)
      · obtain ⟨y, hy, hk⟩ := h
        exact ⟨y, hy, by simp [hk]⟩
      · exact ⟨x, hx, by simp [hk]⟩
  · rename_i h
    simp only [List.mem_append, List.mem_singleton]
    constructor
    · rintro (hx | rfl)
      · exact .inr ⟨hx, fun hk => h (hk ▸ List.mem_map_of_mem hx)⟩
      · exact .inl rfl
    · rintro (rfl | ⟨hx, _⟩)
      · exact .inr rfl
      · exact .inl hx

@[simp] theorem find?_put_self (t : Table R) (r : R) : (t.put r).find? (key r) = some r :=
  find?_eq_some_iff.2 ⟨mem_put.2 (.inl rfl), rfl⟩

theorem find?_put_ne (t : Table R) {r : R} {k : K} (h : k ≠ key r) :
    (t.put r).find? k = t.find? k := by
  apply Option.ext
  intro x
  simp only [find?_eq_some_iff, mem_put]
  constructor
  · rintro ⟨rfl | ⟨hx, _⟩, hk⟩
    · exact absurd hk.symm h
    · exact ⟨hx, hk⟩
  · rintro ⟨hx, rfl⟩; exact ⟨.inr ⟨hx, h⟩, rfl⟩

theorem find?_put (t : Table R) (r : R) (k : K) :
    (t.put r).find? k = if k = key r then some r else t.find? k := by
  by_cases h : k = key r
  · subst h; simp
  · simp [h, find?_put_ne t h]

theorem rows_put_new (t : Table R) {r : R} (h : t.find? (key r) = none) :
    (t.put r).rows = t.rows ++ [r] := by
  simp only [put, putRows]
  exact if_neg (find?_eq_none_iff.1 h)

/-- New rows under keys of their own are added to the table. -/
theorem mem_foldl_put {rs : List R} {t : Table R} (new : ∀ r ∈ rs, t.find? (key r) = none)
    (distinct : (rs.map key).Nodup) (x : R) :
    x ∈ (rs.foldl put t).rows ↔ x ∈ t.rows ∨ x ∈ rs := by
  induction rs generalizing t with
  | nil => simp
  | cons r rs ih =>
    obtain ⟨apart, distinct⟩ := List.nodup_cons.1 distinct
    have others : ∀ r' ∈ rs, (t.put r).find? (key r') = none := by
      intro r' hr'
      have ne : key r' ≠ key r := fun same => apart (same ▸ List.mem_map_of_mem hr')
      rw [find?_put_ne t ne]
      exact new r' (by simp [hr'])
    rw [List.foldl_cons, ih others distinct, rows_put_new t (new r (by simp))]
    simp [or_assoc]

/-- Searching by a property that a stored row keeps finds the same row. -/
theorem find?_rows_put (t : Table R) {r x : R} (hx : t.find? (key r) = some x) (P : R → Bool)
    (same : P r = P x) :
    (t.put r).rows.find? P = (t.rows.find? P).map fun y => if key y = key r then r else y := by
  have taken : key r ∈ t.rows.map key := by
    rw [← find?_key hx]
    exact List.mem_map_of_mem (find?_mem hx)
  simp only [put, putRows, if_pos taken, List.find?_map]
  congr 1
  apply List.find?_congr
  intro y hy
  by_cases hk : key y = key r
  · have : y = x := t.key_inj hy (find?_mem hx) (hk.trans (find?_key hx).symm)
    subst this
    simp only [Function.comp_apply, hk, if_true]
    exact same
  · simp [hk]

/-- The table through a function that keeps the keys. -/
def map {R' : Type} [Keyed R' K] (f : R → R') (same : ∀ r, key (f r) = key r) (t : Table R) :
    Table R' :=
  ⟨t.rows.map f, by simpa [List.map_map, Function.comp_def, same] using t.distinct⟩

/-- What every row has, kept by a new row that takes the place of an old one. -/
theorem put_keeps {t : Table R} {r : R} {Same : R → R → Prop} (refl : ∀ x, Same x x)
    (replaces : ∀ x ∈ t.rows, key x = key r → Same x r) :
    ∀ x ∈ t.rows, ∃ x' ∈ (t.put r).rows, Same x x' := by
  intro x hx
  by_cases taken : key x = key r
  · exact ⟨r, mem_put.2 (.inl rfl), replaces x hx taken⟩
  · exact ⟨x, mem_put.2 (.inr ⟨hx, taken⟩), refl x⟩

/-- No two rows have the same `f`: a unique index. -/
def UniqueOn {β : Type} (t : Table R) (f : R → β) : Prop :=
  ∀ x ∈ t.rows, ∀ y ∈ t.rows, f x = f y → x = y

/-- A row that shares `f` at most with the row it replaces keeps the index. -/
theorem UniqueOn.put {β : Type} {t : Table R} {f : R → β} (unique : t.UniqueOn f) {r : R}
    (apart : ∀ x ∈ t.rows, f x = f r → key x = key r) : (t.put r).UniqueOn f := by
  intro x hx y hy same
  rcases mem_put.1 hx with newx | ⟨oldx, ne⟩
  · rcases mem_put.1 hy with newy | ⟨oldy, ne⟩
    · exact newx.trans newy.symm
    · exact absurd (apart y oldy (newx ▸ same.symm)) ne
  · rcases mem_put.1 hy with newy | ⟨oldy, -⟩
    · exact absurd (apart x oldx (newy ▸ same)) ne
    · exact unique x oldx y oldy same

/-- The sum of `f` over the rows. -/
def total (t : Table R) (f : R → Int) : Int := (t.rows.map f).sum

theorem sum_replace (r : R) (f : R → Int) {rows : List R} (h : (rows.map key).Nodup)
    (hr : key r ∈ rows.map key) :
    ((rows.map fun x => if key x = key r then r else x).map f).sum =
      (rows.map f).sum - ((rows.find? fun x => key x = key r).elim 0 f) + f r := by
  induction rows with
  | nil => simp at hr
  | cons x xs ih =>
    simp only [List.map_cons, List.nodup_cons] at h
    by_cases hx : key x = key r
    · -- The row is `x`; no later row has its key.
      have other : ∀ y ∈ xs, key y ≠ key r := by
        intro y hy e
        exact h.1 (by rw [hx, ← e]; exact List.mem_map_of_mem hy)
      have rest : (xs.map fun y => if key y = key r then r else y) = xs := by
        rw [List.map_congr_left fun y hy => if_neg (other y hy)]
        exact List.map_id' xs
      simp only [List.map_cons, hx, if_true, rest, List.sum_cons, List.find?_cons, decide_true,
        Option.elim]
      omega
    · have hr' : key r ∈ xs.map key := by
        simpa [Ne.symm hx] using hr
      have := ih h.2 hr'
      simp only [List.map_cons, hx, if_false, List.sum_cons, List.find?_cons, decide_false, this]
      omega

theorem total_put (t : Table R) (r : R) (f : R → Int) :
    (t.put r).total f = t.total f - ((t.find? (key r)).elim 0 f) + f r := by
  by_cases h : key r ∈ t.rows.map key
  · simpa only [total, put, putRows, h, if_true, find?] using sum_replace r f t.distinct h
  · simp only [total, put, putRows, h, if_false, find?_eq_none_iff.2 h]
    simp

end Table
end Dormitory
