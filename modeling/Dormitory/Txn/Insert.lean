import Dormitory.Table
import Dormitory.Txn.Rely

/-!
# Rows that are inserted once

A table that requests only insert into, under the entry of its key in a unique
index. A row that was committed stays, an entry that a request holds is not
taken by another, and all committed states agree on the row under a key.
-/

namespace Dormitory.Txn

/-- The table, its rows as writes, and the entries of its index. -/
structure Log {σ : Sig} (E : Engine σ) (R : Type) {K : Type} [DecidableEq K] [Keyed R K] where
  table : σ.St → Table R
  write : R → σ.Write
  entry : K → σ.Lock
  put : ∀ db r, table (E.apply db (write r)) = (table db).put r
  locked : ∀ r, entry (key r) ∈ E.locks (write r)

namespace Log
variable {σ : Sig} {E : Engine σ} {R K : Type} [DecidableEq K] [Keyed R K] (l : Log E R)

/-- Nothing, or a row under a free key. -/
def Inserts (db : σ.St) (ws : List σ.Write) : Prop :=
  ws = [] ∨ ∃ r, ws = [l.write r] ∧ (l.table db).find? (key r) = none

variable {l} {held : List σ.Lock} {db db' : σ.St} {k : K} {r : R}

theorem find?_foldl {ws : List σ.Write} (inserts : l.Inserts db ws)
    (found : (l.table db).find? k = some r) :
    (l.table (ws.foldl E.apply db)).find? k = some r := by
  rcases inserts with rfl | ⟨r', rfl, free⟩
  · exact found
  · have other : k ≠ key r' := by
      rintro rfl
      cases found.symm.trans free
    rw [List.foldl_cons, List.foldl_nil, l.put, Table.find?_put, if_neg other]
    exact found

/-- A committed row stays. -/
theorem find?_later (h : Interferes E l.Inserts held db db')
    (found : (l.table db).find? k = some r) : (l.table db').find? k = some r :=
  h.preserves (I := fun d => (l.table d).find? k = some r)
    (fun _ _ found inserts _ => find?_foldl inserts found) found

/-- A free entry stays free while a request holds it. -/
theorem free_later (lock : l.entry k ∈ held) (h : Interferes E l.Inserts held db db')
    (free : (l.table db).find? k = none) : (l.table db').find? k = none := by
  refine h.preserves (I := fun d => (l.table d).find? k = none) ?_ free
  rintro d ws free (rfl | ⟨r, rfl, -⟩) apart
  · exact free
  · have other : k ≠ key r := by
      rintro rfl
      exact absurd lock (apart _ (by simpa using l.locked r))
    rw [List.foldl_cons, List.foldl_nil, l.put, Table.find?_put, if_neg other]
    exact free

/-- The other tables stay as they are. -/
theorem frame {α : Type} (f : σ.St → α) (keeps : ∀ db r, f (E.apply db (l.write r)) = f db)
    (h : Interferes E l.Inserts held db db') : f db' = f db := by
  refine h.preserves (I := fun d => f d = f db) ?_ rfl
  rintro d ws same (rfl | ⟨r, rfl, -⟩) -
  · exact same
  · exact (keeps d r).trans same

/-- Two states that lead to a third one agree on the row under a key. -/
theorem agree {d d' : σ.St} {r' : R} (h : Interferes E l.Inserts [] d db)
    (h' : Interferes E l.Inserts [] d' db) (mem : r ∈ (l.table d).rows)
    (mem' : r' ∈ (l.table d').rows) (same : key r = key r') : r = r' := by
  have found := find?_later h (Table.find?_of_mem mem)
  have found' := find?_later h' (Table.find?_of_mem mem')
  rw [← same, found] at found'
  exact Option.some.inj found'

end Log
end Dormitory.Txn
