import Mathlib.Data.List.Sort
import Mathlib.Order.Defs.LinearOrder
import Mathlib.Tactic.Common

/-!
# Keyset paging

Rows in descending order of a key, a page at a time: a page is asked for by the
key of the last row of the page before it. A client that follows these bounds
sees what one scan at the start would have shown, also when newer rows come in
on the way.
-/

namespace Dormitory.Keyset

section scan
variable {α κ : Type} [LinearOrder κ] (sortKey : α → κ)

/-- The rows below the bound, the largest key first. -/
def scan (rows : List α) (bound : Option κ) : List α :=
  (rows.filter fun r => bound.all fun b => sortKey r < b).mergeSort fun x y =>
    decide (sortKey y ≤ sortKey x)

/-- At most `limit` rows, and the bound of the next page if there is one. One row
more is looked up to know. -/
def page (limit : Nat) (rows : List α) (bound : Option κ) : List α × Option κ :=
  let found := (scan sortKey rows bound).take (limit + 1)
  if found.length ≤ limit then (found, none)
  else (found.take limit, (found.take limit).getLast?.map sortKey)

/-- The rows of `start`, and newer ones. -/
structure Grown (start rows : List α) : Prop where
  distinct : (rows.map sortKey).Nodup
  kept : ∀ r ∈ start, r ∈ rows
  newer : ∀ r ∈ rows, r ∈ start ∨ ∀ x ∈ start, sortKey x < sortKey r

variable {sortKey} {rows start : List α} {bound : Option κ}

theorem mem_scan {r : α} :
    r ∈ scan sortKey rows bound ↔ r ∈ rows ∧ ∀ b ∈ bound, sortKey r < b := by
  simp only [scan, List.mem_mergeSort, List.mem_filter, Option.all_eq_true, decide_eq_true_eq,
    Option.mem_def]

theorem scan_perm : (scan sortKey rows bound).Perm
    (rows.filter fun r => bound.all fun b => sortKey r < b) := List.mergeSort_perm _ _

theorem scan_sorted : (scan sortKey rows bound).Pairwise fun x y => sortKey y ≤ sortKey x := by
  have trans : ∀ a b c : α, decide (sortKey b ≤ sortKey a) → decide (sortKey c ≤ sortKey b) →
      decide (sortKey c ≤ sortKey a) := by
    intro a b c ab bc
    simp only [decide_eq_true_eq] at ab bc ⊢
    exact bc.trans ab
  have total : ∀ a b : α, decide (sortKey b ≤ sortKey a) || decide (sortKey a ≤ sortKey b) := by
    intro a b
    simp only [Bool.or_eq_true, decide_eq_true_eq]
    exact le_total _ _
  exact (List.pairwise_mergeSort trans total _).imp fun h => of_decide_eq_true h

theorem scan_nodup (distinct : (rows.map sortKey).Nodup) :
    ((scan sortKey rows bound).map sortKey).Nodup :=
  (scan_perm.map sortKey).nodup_iff.mpr (distinct.sublist (List.filter_sublist.map sortKey))

/-- Distinct keys are in strict order. -/
theorem scan_strict (distinct : (rows.map sortKey).Nodup) :
    (scan sortKey rows bound).Pairwise fun x y => sortKey y < sortKey x := by
  have apart : (scan sortKey rows bound).Pairwise fun x y => sortKey x ≠ sortKey y :=
    List.pairwise_map.mp (scan_nodup distinct)
  exact (scan_sorted.and apart).imp fun ⟨le, ne⟩ => lt_of_le_of_ne le (Ne.symm ne)

/-- A list in strict order with the rows of a scan is the scan. -/
theorem scan_unique (distinct : (rows.map sortKey).Nodup) {l : List α}
    (sorted : l.Pairwise fun x y => sortKey y < sortKey x)
    (same : ∀ r, r ∈ l ↔ r ∈ rows ∧ ∀ b ∈ bound, sortKey r < b) :
    scan sortKey rows bound = l := by
  have strict : (scan sortKey rows bound).Pairwise fun x y => sortKey y < sortKey x :=
    scan_strict distinct
  have apart : ∀ {l : List α}, l.Pairwise (fun x y => sortKey y < sortKey x) → l.Nodup :=
    fun h => h.imp fun lt same => lt.ne' (congrArg sortKey same)
  refine List.Perm.eq_of_pairwise (fun a b _ _ ab ba => absurd ab ba.not_gt) strict sorted ?_
  exact (List.perm_ext_iff_of_nodup (apart strict) (apart sorted)).mpr fun r =>
    mem_scan.trans (same r).symm

/-- What is below a row of the scan are the rows after it. -/
theorem scan_after (distinct : (rows.map sortKey).Nodup) {before after : List α} {x : α}
    (split : scan sortKey rows bound = before ++ x :: after) :
    scan sortKey rows (some (sortKey x)) = after := by
  have strict : (scan sortKey rows bound).Pairwise fun x y => sortKey y < sortKey x :=
    scan_strict distinct
  have known : ∀ r, r ∈ before ++ x :: after ↔ r ∈ rows ∧ ∀ b ∈ bound, sortKey r < b := by
    intro r
    rw [← split, mem_scan]
  rw [split] at strict
  obtain ⟨-, tail, ordered⟩ := List.pairwise_append.mp strict
  obtain ⟨below, sorted⟩ := List.pairwise_cons.mp tail
  apply scan_unique distinct sorted
  intro r
  constructor
  · intro late
    have mem := (known r).mp (List.mem_append_right _ (List.mem_cons_of_mem _ late))
    exact ⟨mem.1, fun b hb => Option.mem_some_iff.mp hb ▸ below r late⟩
  · rintro ⟨mem, small⟩
    have lt : sortKey r < sortKey x := small _ rfl
    have within := (known x).mp (List.mem_append_right _ List.mem_cons_self)
    have listed := (known r).mpr ⟨mem, fun b hb => lt.trans (within.2 b hb)⟩
    cases List.mem_append.mp listed with
    | inl early => exact absurd (ordered r early x List.mem_cons_self) lt.not_gt
    | inr here =>
      cases here with
      | head => exact absurd lt (lt_irrefl _)
      | tail _ late => exact late

/-- Newer rows are not below an old one. -/
theorem Grown.scan_eq (grown : Grown sortKey start rows) (distinct : (start.map sortKey).Nodup)
    {x : α} (hx : x ∈ start) :
    scan sortKey rows (some (sortKey x)) = scan sortKey start (some (sortKey x)) := by
  refine scan_unique grown.distinct (scan_strict distinct) fun r => ?_
  rw [mem_scan]
  constructor
  · rintro ⟨old, below⟩
    exact ⟨grown.kept r old, below⟩
  · rintro ⟨mem, below⟩
    cases grown.newer r mem with
    | inl old => exact ⟨old, below⟩
    | inr new => exact absurd (below _ rfl) (new x hx).not_gt

/-- Scans of the same rows are the same. -/
theorem scan_congr {rows' : List α} (distinct : (rows.map sortKey).Nodup)
    (distinct' : (rows'.map sortKey).Nodup) (same : ∀ r, r ∈ rows ↔ r ∈ rows') :
    scan sortKey rows bound = scan sortKey rows' bound :=
  scan_unique distinct (scan_strict distinct') fun r => by rw [mem_scan, same]

end scan

/-! ## A client -/

/-- The pages from the `n`-th fetch on, put together, for at most `fuel` fetches. -/
def follow {ε α γ : Type} (fetch : Nat → Option γ → Except ε (List α × Option γ)) :
    Nat → Option γ → Nat → Option (Except ε (List α))
  | _, _, 0 => none
  | n, cursor, fuel + 1 =>
    match fetch n cursor with
    | .error e => some (.error e)
    | .ok (items, none) => some (.ok items)
    | .ok (items, some next) =>
      (follow fetch (n + 1) (some next) fuel).map fun rest => rest.map (items ++ ·)

section client
variable {ε α γ κ : Type} [LinearOrder κ] {sortKey : α → κ} {limit : Nat}
  {tables : Nat → List α} {fetch : Nat → Option γ → Except ε (List α × Option γ)}
  {encode : κ → γ}

theorem page_cases (sortKey : α → κ) (pos : 0 < limit) (rows : List α) (bound : Option κ) :
    page sortKey limit rows bound = (scan sortKey rows bound, none) ∨
      ∃ before x after, scan sortKey rows bound = before ++ x :: after ∧
        page sortKey limit rows bound = (before ++ [x], some (sortKey x)) := by
  by_cases all : (scan sortKey rows bound).length ≤ limit
  · left
    have found : (scan sortKey rows bound).take (limit + 1) = scan sortKey rows bound :=
      List.take_of_length_le (by omega)
    simp only [page, found, if_pos all]
  · right
    obtain ⟨before, x, items⟩ : ∃ before x,
        (scan sortKey rows bound).take limit = before ++ [x] := by
      have some : (scan sortKey rows bound).take limit ≠ [] := by
        intro none
        have := congrArg List.length none
        rw [List.length_take, List.length_nil] at this
        omega
      exact ⟨_, _, (List.dropLast_append_getLast some).symm⟩
    have long : ¬ ((scan sortKey rows bound).take (limit + 1)).length ≤ limit := by
      rw [List.length_take]
      omega
    refine ⟨before, x, (scan sortKey rows bound).drop limit, ?_, ?_⟩
    · rw [← List.singleton_append, ← List.append_assoc, ← items, List.take_append_drop]
    · simp only [page, if_neg long, List.take_take, Nat.min_eq_left (Nat.le_succ limit), items,
        List.getLast?_concat, Option.map_some]

/-- A client that starts at a row of the start, or at the top of it. -/
theorem follow_scan (pos : 0 < limit)
    (fetches : ∀ n bound, fetch n (bound.map encode) =
      .ok ((page sortKey limit (tables n) bound).1,
        (page sortKey limit (tables n) bound).2.map encode))
    (distinct : ((tables 0).map sortKey).Nodup)
    (grown : ∀ n, Grown sortKey (tables 0) (tables n)) (fuel : Nat) :
    ∀ n bound, scan sortKey (tables n) bound = scan sortKey (tables 0) bound →
      (scan sortKey (tables 0) bound).length < fuel →
      follow fetch n (bound.map encode) fuel = some (.ok (scan sortKey (tables 0) bound)) := by
  induction fuel with
  | zero => intro n bound _ short; omega
  | succ fuel ih =>
    intro n bound same short
    rw [follow, fetches]
    cases page_cases sortKey pos (tables n) bound with
    | inl last =>
      rw [last, same]
      rfl
    | inr more =>
      obtain ⟨before, x, after, split, paged⟩ := more
      rw [same] at split
      have old : x ∈ tables 0 :=
        (mem_scan.mp (split ▸ List.mem_append_right _ List.mem_cons_self)).1
      have rest := scan_after distinct split
      have next := ih (n + 1) (some (sortKey x)) ((grown (n + 1)).scan_eq distinct old) (by
        rw [split, List.length_append, List.length_cons] at short
        rw [rest]
        omega)
      rw [Option.map_some, rest] at next
      simp only [paged, Option.map_some, next, split, Except.map, List.append_assoc,
        List.singleton_append]

/-- **Following the bounds** from the top shows every row of the start once, in
order, whatever newer rows come in. -/
theorem follow_all (pos : 0 < limit)
    (fetches : ∀ n bound, fetch n (bound.map encode) =
      .ok ((page sortKey limit (tables n) bound).1,
        (page sortKey limit (tables n) bound).2.map encode))
    (distinct : ((tables 0).map sortKey).Nodup)
    (grown : ∀ n, Grown sortKey (tables 0) (tables n)) {fuel : Nat}
    (enough : (tables 0).length < fuel) :
    follow fetch 0 none fuel = some (.ok (scan sortKey (tables 0) none)) := by
  refine follow_scan pos fetches distinct grown fuel 0 none rfl (lt_of_le_of_lt ?_ enough)
  rw [scan_perm.length_eq]
  exact List.length_filter_le _ _

end client
end Dormitory.Keyset
