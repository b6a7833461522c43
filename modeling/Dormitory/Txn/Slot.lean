import Dormitory.Table
import Dormitory.Txn.Rely

/-!
# One row per slot

A unique index lets at most one row into a slot, and an INSERT keeps the slot's
entry locked to the end of its transaction. When every commit is such an INSERT
or nothing, a taken slot stays as it is, a slot that is still empty has seen no
commit at all, and whoever holds its entry is alone.
-/

namespace Dormitory.Txn

/-- A slot of a unique index: the table, the rows that fall into the slot, and
the lock of its entry. -/
structure Slot {σ : Sig} (E : Engine σ) (R : Type) {K : Type} [DecidableEq K] [Keyed R K] where
  table : σ.St → Table R
  write : R → σ.Write
  has : R → Bool
  entry : σ.Lock
  put : ∀ db r, table (E.apply db (write r)) = (table db).put r
  locked : ∀ r, has r = true → entry ∈ E.locks (write r)

namespace Slot
variable {σ : Sig} {E : Engine σ} {R K : Type} [DecidableEq K] [Keyed R K] (s : Slot E R)

/-- The row in the slot. -/
def row? (db : σ.St) : Option R := (s.table db).rows.find? s.has

/-- Nothing, or the first row of the slot. -/
def Takes (db : σ.St) (ws : List σ.Write) : Prop :=
  ws = [] ∨ ∃ r, ws = [s.write r] ∧ s.has r = true ∧ s.row? db = none ∧
    (s.table db).find? (key r) = none

variable {s} {held : List σ.Lock} {db db' : σ.St}

/-- A first row is added to the others. -/
theorem rows_apply {r : R} (fresh : (s.table db).find? (key r) = none) :
    (s.table (E.apply db (s.write r))).rows = (s.table db).rows ++ [r] := by
  rw [s.put, Table.rows_put_new _ fresh]

theorem row?_apply {r : R} (has : s.has r = true) (empty : s.row? db = none)
    (fresh : (s.table db).find? (key r) = none) : s.row? (E.apply db (s.write r)) = some r := by
  unfold row? at empty ⊢
  rw [rows_apply fresh, List.find?_append, empty]
  simp [has]

/-- Once the slot is taken, nothing is committed. -/
theorem taken {w : R} (used : s.row? db = some w) (h : Interferes E s.Takes held db db') :
    db' = db := by
  refine h.preserves (I := (· = db)) ?_ rfl
  rintro d ws rfl (rfl | ⟨r, -, -, empty, -⟩) -
  · rfl
  · rw [used] at empty
    cases empty

/-- While a request holds the entry, no other one commits a row. -/
theorem alone (lock : s.entry ∈ held) (h : Interferes E s.Takes held db db') : db' = db := by
  refine h.preserves (I := (· = db)) ?_ rfl
  rintro d ws rfl (rfl | ⟨r, rfl, has, -, -⟩) apart
  · rfl
  · exact absurd lock (apart _ (by simpa using s.locked r has))

/-- As long as the slot is empty, nothing was committed. -/
theorem untouched (empty : s.row? db' = none) (h : Interferes E s.Takes held db db') :
    db' = db := by
  suffices reach : db' = db ∨ (s.row? db').isSome by
    rcases reach with same | used
    · exact same
    · rw [empty] at used
      cases used
  refine h.preserves (I := fun d => d = db ∨ (s.row? d).isSome) ?_ (.inl rfl)
  rintro d ws before (rfl | ⟨r, rfl, has, empty, fresh⟩) -
  · exact before
  · right
    simp [row?_apply has empty fresh]

/-- What a committed state says of the other tables stays so. -/
theorem frame {α : Type} (f : σ.St → α) (keeps : ∀ db r, f (E.apply db (s.write r)) = f db)
    (h : Interferes E s.Takes held db db') : f db' = f db := by
  refine h.preserves (I := fun d => f d = f db) ?_ rfl
  rintro d ws same (rfl | ⟨r, rfl, -⟩) -
  · exact same
  · exact (keeps d r).trans same

/-- The rows of the table stay. -/
theorem rows_subset (h : Interferes E s.Takes held db db') :
    (s.table db).rows ⊆ (s.table db').rows := by
  refine h.preserves (I := fun d => (s.table db).rows ⊆ (s.table d).rows) ?_ (fun _ hr => hr)
  rintro d ws sub (rfl | ⟨r, rfl, -, -, fresh⟩) - x hx
  · exact sub hx
  · simp only [List.foldl_cons, List.foldl_nil, rows_apply fresh]
    exact List.mem_append_left _ (sub hx)

variable (s) in
/-- At most one row is in the slot. -/
def Unique (db : σ.St) : Prop :=
  ∀ r ∈ (s.table db).rows, ∀ r' ∈ (s.table db).rows, s.has r = true → s.has r' = true → r = r'

theorem unique_stays (h : Interferes E s.Takes held db db') (unique : s.Unique db) :
    s.Unique db' := by
  refine h.preserves (I := s.Unique) ?_ unique
  rintro d ws unique (rfl | ⟨w, rfl, -, empty, fresh⟩) -
  · exact unique
  · have none : ∀ r ∈ (s.table d).rows, ¬ s.has r = true := List.find?_eq_none.1 empty
    intro r hr r' hr' has has'
    simp only [List.foldl_cons, List.foldl_nil, rows_apply fresh, List.mem_append,
      List.mem_singleton] at hr hr'
    rcases hr with hr | rfl
    · exact absurd has (none r hr)
    · rcases hr' with hr' | rfl
      · exact absurd has' (none r' hr')
      · rfl

/-- All committed states of a run together have one row in the slot at most. -/
theorem unique_ever {first d d' now : σ.St} (unique : s.Unique first)
    (reached : Interferes E s.Takes [] first now) (hd : Interferes E s.Takes [] d now)
    (hd' : Interferes E s.Takes [] d' now) {r r' : R} (hr : r ∈ (s.table d).rows)
    (hr' : r' ∈ (s.table d').rows) (has : s.has r = true) (has' : s.has r' = true) : r = r' :=
  unique_stays reached unique r (rows_subset hd hr) r' (rows_subset hd' hr') has has'

end Slot
end Dormitory.Txn
