import Dormitory.Table

/-!
# Rows with owners

Tables whose rows belong to somebody. Where a table keeps every row under its
owner, whatever refers to a row of an owner goes on doing so.
-/

namespace Dormitory.Table
variable {R K O : Type} [Keyed R K]

/-- The row under the key belongs to `o`. -/
def Owns (t : Table R) (owner : R → O) (o : O) (k : K) : Prop :=
  ∃ r ∈ t.rows, key r = k ∧ owner r = o

instance [DecidableEq K] [DecidableEq O] (t : Table R) (owner : R → O) (o : O) (k : K) :
    Decidable (t.Owns owner o k) :=
  inferInstanceAs (Decidable (∃ r ∈ t.rows, key r = k ∧ owner r = o))

/-- Every row stays with its owner, and the rows that are new are as `P` says. -/
structure Grows (owner : R → O) (P : R → Prop) (t t' : Table R) : Prop where
  kept : ∀ r ∈ t.rows, t'.Owns owner (owner r) (key r)
  new : ∀ r ∈ t'.rows, r ∈ t.rows ∨ P r

variable {t t' : Table R} {owner : R → O} {P : R → Prop} {o : O} {k : K} {r : R}

/-- No key belongs to two. -/
theorem Owns.unique {o' : O} (h : t.Owns owner o k) (h' : t.Owns owner o' k) : o = o' := by
  obtain ⟨r, hr, rfl, rfl⟩ := h
  obtain ⟨r', hr', same, rfl⟩ := h'
  rw [t.key_inj hr' hr same]

theorem Grows.refl (t : Table R) (owner : R → O) (P : R → Prop) : Grows owner P t t where
  kept r hr := ⟨r, hr, rfl, rfl⟩
  new _ hr := .inl hr

theorem Grows.owns (grows : Grows owner P t t') (h : t.Owns owner o k) : t'.Owns owner o k := by
  obtain ⟨r, hr, rfl, rfl⟩ := h
  exact grows.kept r hr

/-- What holds of the old rows and of the new ones holds of all. -/
theorem Grows.all (grows : Grows owner P t t') (old : ∀ r ∈ t.rows, P r) : ∀ r ∈ t'.rows, P r :=
  fun r hr => (grows.new r hr).elim (old r) id

theorem owns_map {R' : Type} [Keyed R' K] {f : R → R'} (same : ∀ r, key (f r) = key r)
    {owner' : R' → O} (h : (t.map f same).Owns owner' o k) :
    t.Owns (fun r => owner' (f r)) o k := by
  obtain ⟨_, hr, rfl, own⟩ := h
  obtain ⟨r, stored, rfl⟩ := List.mem_map.mp hr
  exact ⟨r, stored, (same r).symm, own⟩

section put
variable [DecidableEq K]

theorem owns_of_find? (found : t.find? k = some r) (own : owner r = o) : t.Owns owner o k :=
  ⟨r, find?_mem found, find?_key found, own⟩

/-- The rule for a row in the place of one of the same owner, or of none. -/
theorem Grows.put (replaces : ∀ x ∈ t.rows, key x = key r → owner x = owner r) (fits : P r) :
    Grows owner P t (t.put r) := by
  constructor
  · intro x hx
    by_cases same : key x = key r
    · exact ⟨r, mem_put.mpr (.inl rfl), same.symm, (replaces x hx same).symm⟩
    · exact ⟨x, mem_put.mpr (.inr ⟨hx, same⟩), rfl, rfl⟩
  · intro x hx
    rcases mem_put.mp hx with rfl | ⟨old, -⟩
    · exact .inr fits
    · exact .inl old

theorem Grows.add (fresh : t.find? (key r) = none) (fits : P r) : Grows owner P t (t.put r) :=
  .put (fun _ hx same => absurd (same ▸ List.mem_map_of_mem hx) (find?_eq_none_iff.mp fresh)) fits

theorem Grows.change {x : R} (stored : x ∈ t.rows) (same : key r = key x)
    (own : owner r = owner x) (fits : P r) : Grows owner P t (t.put r) := by
  refine .put (fun y hy here => ?_) fits
  rw [t.key_inj hy stored (here.trans same), own]

end put
end Dormitory.Table
