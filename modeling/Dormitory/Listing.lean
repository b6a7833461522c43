import Dormitory.Cursor
import Dormitory.Keyset
import Mathlib.Data.Prod.Lex

/-!
# Lists in pages

`PaymentService.list` and `InvoiceService.list`: the rows of a filter, the newest
first, in pages that the cursors of `cursor.util.ts` link.
-/

namespace Dormitory
open Keyset PromptPay

/-- A column of uuids: how its values are written, and how a text is read. -/
structure UuidColumn where
  text : Id → String
  read : String → Option Id
  read_text : ∀ id, read (text id) = some id

/-- What a cursor stands for: the row that it is the cursor of, by its order. -/
structure Boundary where
  createdAt : DateTime
  id : Id
  deriving DecidableEq

/-- What the lists differ in. -/
structure Listing (R F : Type) where
  companyId : R → Id
  createdAt : R → DateTime
  baseWhere : F → R → Bool

namespace Listing
variable {R F : Type} [Keyed R Id] (L : Listing R F) (ids : UuidColumn)
  (otherFormat : String → Option DateTime) (ctx : Ctx)

/-- The rows that a request sees: those of its company that the filter lets through. -/
def visible (filter : F) (t : Table R) : List R :=
  t.rows.filter fun r => L.companyId r = ctx.companyId ∧ L.baseWhere filter r

/-- The values that a cursor is compared by; an empty one is none. -/
def after (cursor : Option String) : Except Failure (Option Boundary) :=
  match cursor.filter (· ≠ "") with
  | none => .ok none
  | some raw => do
    let decoded ← decodeCursor otherFormat raw
    match dateParse otherFormat decoded.createdAt, ids.read decoded.id with
    | some createdAt, some id => return some ⟨createdAt, id⟩
    | some _, none => throw (.prisma "P2023" .null)
    | none, _ => throw (.error "Provided Date object is invalid. Expected Date.")

/-- `findMany`, with the OR of the cursor and `orderBy`. -/
def findMany (filter : F) (after : Option Boundary) (take : Nat) (t : Table R) : List R :=
  (((L.visible ctx filter t).filter fun r => after.all fun b =>
    (L.createdAt r).val < b.createdAt.val ∨ L.createdAt r = b.createdAt ∧ key r < b.id).mergeSort
      fun x y => decide ((L.createdAt y).val < (L.createdAt x).val ∨
        L.createdAt y = L.createdAt x ∧ key y ≤ key x)).take take

def list (filter : F) (cursor : Option String) (limit : Nat) (t : Table R) :
    Except Failure (CursorPage R) := do
  let after ← after ids otherFormat cursor
  return buildCursorPage L.createdAt (fun r => ids.text (key r))
    (L.findMany ctx filter after (limit + 1) t) limit

end Listing

/-! ## The services -/

structure PaymentRow extends Payment where
  createdAt : DateTime
  deriving DecidableEq

structure InvoiceRow extends Invoice where
  createdAt : DateTime
  deriving DecidableEq

instance : Keyed PaymentRow Id := ⟨fun p => p.id⟩
instance : Keyed InvoiceRow Id := ⟨fun i => i.id⟩

structure ListPaymentsQuery where
  cursor : Option String
  limit : Nat
  status : Option PaymentStatus
  invoiceId : Option Id
  tenantId : Option Id
  deriving DecidableEq

structure ListInvoicesQuery where
  cursor : Option String
  limit : Nat
  status : Option InvoiceStatus
  period : Option Period
  tenantId : Option Id
  deriving DecidableEq

def PaymentService.listing : Listing PaymentRow ListPaymentsQuery where
  companyId p := p.companyId
  createdAt p := p.createdAt
  baseWhere query p := query.status.all (p.status = ·) && query.invoiceId.all (p.invoiceId = ·) &&
    query.tenantId.all (p.tenantId = ·)

def InvoiceService.listing : Listing InvoiceRow ListInvoicesQuery where
  companyId i := i.companyId
  createdAt i := i.createdAt
  baseWhere query i := query.status.all (i.status = ·) && query.period.all (i.period = ·) &&
    query.tenantId.all (i.tenantId = ·)

section
variable (ids : UuidColumn) (otherFormat : String → Option DateTime) (ctx : Ctx)

def PaymentService.list (query : ListPaymentsQuery) (payments : Table PaymentRow) :
    Except Failure (CursorPage PaymentRow) :=
  PaymentService.listing.list ids otherFormat ctx query query.cursor query.limit payments

def InvoiceService.list (query : ListInvoicesQuery) (invoices : Table InvoiceRow) :
    Except Failure (CursorPage InvoiceRow) :=
  InvoiceService.listing.list ids otherFormat ctx query query.cursor query.limit invoices

end

/-! ## A list is a scan in pages -/

namespace Boundary

def lex (b : Boundary) : ℤ ×ₗ ℕ := toLex (b.createdAt.val, b.id)

theorem lex_injective : Function.Injective lex := by
  intro a b same
  have both := congrArg ofLex same
  cases a
  cases b
  cases Subtype.ext (congrArg Prod.fst both)
  cases congrArg Prod.snd both
  rfl

instance : LinearOrder Boundary :=
  @LinearOrder.lift' Boundary (ℤ ×ₗ ℕ)
    (@Prod.Lex.instLinearOrder ℤ ℕ Int.instLinearOrder Nat.instLinearOrder) lex lex_injective

theorem lt_iff (a b : Boundary) :
    a < b ↔ a.createdAt.val < b.createdAt.val ∨ a.createdAt = b.createdAt ∧ a.id < b.id := by
  rw [Subtype.ext_iff]
  exact Prod.Lex.toLex_lt_toLex (x := (a.createdAt.val, a.id)) (y := (b.createdAt.val, b.id))

theorem le_iff (a b : Boundary) :
    a ≤ b ↔ a.createdAt.val < b.createdAt.val ∨ a.createdAt = b.createdAt ∧ a.id ≤ b.id := by
  rw [Subtype.ext_iff]
  exact Prod.Lex.toLex_le_toLex (x := (a.createdAt.val, a.id)) (y := (b.createdAt.val, b.id))

end Boundary

namespace Listing
variable {R F : Type} [Keyed R Id] (L : Listing R F) (ids : UuidColumn)
  (otherFormat : String → Option DateTime) (ctx : Ctx)

/-- What rows are sorted by. -/
def sortKey (r : R) : Boundary := ⟨L.createdAt r, key r⟩

/-- The cursor that points at a row of the key. -/
def cursorOf (b : Boundary) : String :=
  encodeCursor ⟨b.createdAt.val.toISOString, ids.text b.id⟩

/-- A client's request: the `n`-th one meets the `n`-th table. -/
def fetch (list : Option String → Table R → Except Failure (CursorPage R))
    (tables : Nat → Table R) (n : Nat) (cursor : Option String) :
    Except Failure (List R × Option String) :=
  (list cursor (tables n)).map fun p => (p.items, p.nextCursor)

variable {L ids otherFormat ctx}

theorem encodeCursor_ne {p : CursorPayload} (date : (dateParse otherFormat p.createdAt).isSome) :
    encodeCursor p ≠ "" := by
  intro none
  have read := decodeCursor_encodeCursor date
  have empty : decodeCursor otherFormat "" =
      .error (invalidCursor "Cursor payload is not valid JSON") := by
    have text : Buffer.toUtf8 (Buffer.fromBase64url "".toList) = [] := by
      simp [Buffer.fromBase64url, Buffer.octets, Buffer.toUtf8]
    rw [decodeCursor, text]
    rfl
  rw [none, empty] at read
  cases read

theorem cursorOf_date (otherFormat : String → Option DateTime) (b : Boundary) :
    (dateParse otherFormat b.createdAt.val.toISOString).isSome := by
  rw [dateParse_toISOString]
  rfl

theorem cursorOf_ne (b : Boundary) : cursorOf ids b ≠ "" :=
  encodeCursor_ne (cursorOf_date (fun _ => none) b)

/-- A cursor stands for the key it was made of. -/
theorem after_cursorOf (bound : Option Boundary) :
    after ids otherFormat (bound.map (cursorOf ids)) = .ok bound := by
  cases bound with
  | none => rfl
  | some b =>
    have some : (Option.some (cursorOf ids b)).filter (· ≠ "") = Option.some (cursorOf ids b) :=
      Option.filter_some_pos (decide_eq_true (cursorOf_ne b))
    have read : decodeCursor otherFormat (cursorOf ids b) =
        .ok ⟨b.createdAt.val.toISOString, ids.text b.id⟩ :=
      decodeCursor_encodeCursor (cursorOf_date otherFormat b)
    simp only [after, Option.map_some, some, read, bind, Except.bind, dateParse_toISOString,
      ids.read_text, pure, Except.pure]

theorem findMany_scan (filter : F) (bound : Option Boundary) (take : Nat) (t : Table R) :
    L.findMany ctx filter bound take t =
      (scan L.sortKey (L.visible ctx filter t) bound).take take := by
  have below : ∀ r, (bound.all fun b => (L.createdAt r).val < b.createdAt.val ∨
      L.createdAt r = b.createdAt ∧ key r < b.id) = bound.all fun b => L.sortKey r < b := by
    intro r
    cases bound with
    | none => rfl
    | some b => exact decide_eq_decide.mpr (Boundary.lt_iff (L.sortKey r) b).symm
  have order : ∀ x y : R, decide ((L.createdAt y).val < (L.createdAt x).val ∨
      L.createdAt y = L.createdAt x ∧ key y ≤ key x) = decide (L.sortKey y ≤ L.sortKey x) :=
    fun x y => decide_eq_decide.mpr (Boundary.le_iff (L.sortKey y) (L.sortKey x)).symm
  simp only [findMany, scan, below, order]

/-- One call is one page of the scan. -/
theorem list_page (filter : F) (bound : Option Boundary) (limit : Nat)
    (tables : Nat → Table R) (n : Nat) :
    fetch (fun cursor => L.list ids otherFormat ctx filter cursor limit) tables n
        (bound.map (cursorOf ids)) =
      .ok ((page L.sortKey limit (L.visible ctx filter (tables n)) bound).1,
        (page L.sortKey limit (L.visible ctx filter (tables n)) bound).2.map (cursorOf ids)) := by
  have answer : L.list ids otherFormat ctx filter (bound.map (cursorOf ids)) limit (tables n) =
      .ok (buildCursorPage L.createdAt (fun r => ids.text (key r))
        ((scan L.sortKey (L.visible ctx filter (tables n)) bound).take (limit + 1)) limit) := by
    rw [list, after_cursorOf, ← findMany_scan]
    rfl
  rw [fetch, answer]
  simp only [Except.map, buildCursorPage, page]
  split
  · rfl
  · rw [Option.map_map]
    rfl

theorem visible_distinct (L : Listing R F) (ctx : Ctx) (filter : F) (t : Table R) :
    ((L.visible ctx filter t).map L.sortKey).Nodup := by
  have some : (L.visible ctx filter t).Sublist t.rows := List.filter_sublist
  refine List.Nodup.of_map Boundary.id ?_
  rw [List.map_map]
  exact t.distinct.sublist (some.map key)

/-- A list shows visible rows only. -/
theorem list_visible {filter : F} {cursor : Option String} {limit : Nat} {t : Table R}
    {p : CursorPage R} (answer : L.list ids otherFormat ctx filter cursor limit t = .ok p) :
    ∀ r ∈ p.items, r ∈ L.visible ctx filter t := by
  have found : ∀ after take, ∀ r ∈ L.findMany ctx filter after take t,
      r ∈ L.visible ctx filter t := by
    intro after take r hr
    exact (List.mem_filter.mp (List.mem_mergeSort.mp (List.mem_of_mem_take hr))).1
  intro r hr
  unfold list at answer
  cases compared : Listing.after ids otherFormat cursor with
  | error err =>
    rw [compared] at answer
    cases answer
  | ok after =>
    rw [compared] at answer
    cases answer
    unfold buildCursorPage at hr
    split at hr
    · exact found _ _ r hr
    · exact found _ _ r (List.mem_of_mem_take hr)

/-- A list depends on the visible rows only. -/
theorem list_congr {filter : F} {t t' : Table R}
    (same : ∀ r, r ∈ L.visible ctx filter t ↔ r ∈ L.visible ctx filter t')
    (cursor : Option String) (limit : Nat) :
    L.list ids otherFormat ctx filter cursor limit t =
      L.list ids otherFormat ctx filter cursor limit t' := by
  have found : ∀ after take,
      L.findMany ctx filter after take t = L.findMany ctx filter after take t' := by
    intro after take
    rw [findMany_scan, findMany_scan,
      scan_congr (visible_distinct L ctx filter t) (visible_distinct L ctx filter t') same]
  simp only [list, found]

/-- The rows, each once, the newest first. -/
structure Exactly (L : Listing R F) (rows items : List R) : Prop where
  perm : items.Perm rows
  sorted : items.Pairwise fun x y =>
    (L.createdAt y).val < (L.createdAt x).val ∨ L.createdAt y = L.createdAt x ∧ key y < key x

/-- The rows of `start`, and others that were created later. -/
structure Later (L : Listing R F) (start t : Table R) : Prop where
  kept : ∀ r ∈ start.rows, r ∈ t.rows
  later : ∀ r ∈ t.rows, r ∈ start.rows ∨
    ∀ x ∈ start.rows, (L.createdAt x).val < (L.createdAt r).val

theorem Later.grown {start t : Table R} (later : L.Later start t) (filter : F) :
    Grown L.sortKey (L.visible ctx filter start) (L.visible ctx filter t) := by
  refine ⟨visible_distinct L ctx filter t, fun r hr => ?_, fun r hr => ?_⟩
  · obtain ⟨mem, seen⟩ := List.mem_filter.mp hr
    exact List.mem_filter.mpr ⟨later.kept r mem, seen⟩
  · obtain ⟨mem, seen⟩ := List.mem_filter.mp hr
    cases later.later r mem with
    | inl old => exact .inl (List.mem_filter.mpr ⟨old, seen⟩)
    | inr new =>
      exact .inr fun x hx =>
        (Boundary.lt_iff _ _).mpr (.inl (new x (List.mem_filter.mp hx).1))

/-- **Following the cursors of a list** to the end shows what was there at the
start, each row once. -/
theorem follow_exactly (filter : F) {limit : Nat} (pos : 1 ≤ limit) {tables : Nat → Table R}
    (later : ∀ n, L.Later (tables 0) (tables n)) :
    ∃ items, L.Exactly (L.visible ctx filter (tables 0)) items ∧
      ∀ fuel, (L.visible ctx filter (tables 0)).length < fuel →
        follow (fetch (fun cursor => L.list ids otherFormat ctx filter cursor limit) tables)
          0 none fuel = some (.ok items) := by
  have distinct := visible_distinct L ctx filter (tables 0)
  refine ⟨scan L.sortKey (L.visible ctx filter (tables 0)) none, ⟨?_, ?_⟩, fun fuel enough => ?_⟩
  · refine scan_perm.trans (.of_eq ?_)
    exact List.filter_eq_self.mpr fun _ _ => rfl
  · exact (scan_strict distinct).imp fun lt => (Boundary.lt_iff _ _).mp lt
  · exact follow_all pos
      (fun n bound => list_page filter bound limit tables n)
      distinct (fun n => (later n).grown filter) enough

end Listing

/-- **Keyset paging loses and repeats nothing.** A client that follows the cursors
of payments or invoices to the end has seen every row of its filter that there
was at the start exactly once, the newest first, whatever rows came in later. -/
theorem lists_page_exactly (ids : UuidColumn) (otherFormat : String → Option DateTime) (ctx : Ctx) :
    (∀ (query : ListPaymentsQuery) (tables : Nat → Table PaymentRow), 1 ≤ query.limit →
      (∀ n, PaymentService.listing.Later (tables 0) (tables n)) →
      let start := PaymentService.listing.visible ctx query (tables 0)
      ∃ items, PaymentService.listing.Exactly start items ∧ ∀ fuel, start.length < fuel →
        follow (Listing.fetch (fun cursor => PaymentService.list ids otherFormat ctx
          { query with cursor := cursor }) tables) 0 none fuel = some (.ok items)) ∧
    ∀ (query : ListInvoicesQuery) (tables : Nat → Table InvoiceRow), 1 ≤ query.limit →
      (∀ n, InvoiceService.listing.Later (tables 0) (tables n)) →
      let start := InvoiceService.listing.visible ctx query (tables 0)
      ∃ items, InvoiceService.listing.Exactly start items ∧ ∀ fuel, start.length < fuel →
        follow (Listing.fetch (fun cursor => InvoiceService.list ids otherFormat ctx
          { query with cursor := cursor }) tables) 0 none fuel = some (.ok items) := by
  constructor
  · intro query tables pos later
    exact PaymentService.listing.follow_exactly query pos later
  · intro query tables pos later
    exact InvoiceService.listing.follow_exactly query pos later

namespace Demo

/-- Ids of twelve digits at most are texts of uuids. -/
def uuids : UuidColumn where
  text id := "00000000-0000-0000-0000-" ++ padStart 12 id
  read s :=
    if s.toList.take 24 = "00000000-0000-0000-0000-".toList then readDigits (s.toList.drop 24)
    else none
  read_text id := by
    rw [String.toList_append, List.take_left' (by decide), List.drop_left' (by decide), if_pos rfl,
      readDigits_padStart]

def at' (createdAt : DateTime) (id : Id) : PaymentRow :=
  { payment id 31 11 (baht 100) "key" with createdAt := createdAt }

/-- Two payments of one millisecond and an older one. -/
def three : Table PaymentRow :=
  (((default : Table PaymentRow).put (at' ⟨5, by decide⟩ 1)).put (at' ⟨9, by decide⟩ 2)).put
    (at' ⟨9, by decide⟩ 3)

/-- A newer one comes in after the first page. -/
def growing : Nat → Table PaymentRow
  | 0 => three
  | _ + 1 => three.put (at' ⟨12, by decide⟩ 4)

def pendingOnes : ListPaymentsQuery := ⟨none, 1, some .pending, none, none⟩

end Demo

theorem lists_page_exactly_tied :
    ∃ items, PaymentService.listing.Exactly
        (PaymentService.listing.visible Demo.ctx Demo.pendingOnes (Demo.growing 0)) items ∧
      ∀ fuel, (PaymentService.listing.visible Demo.ctx Demo.pendingOnes (Demo.growing 0)).length <
          fuel →
        follow (Listing.fetch (fun cursor => PaymentService.list Demo.uuids (fun _ => none) Demo.ctx
          { Demo.pendingOnes with cursor := cursor }) Demo.growing) 0 none fuel =
            some (.ok items) := by
  refine (lists_page_exactly Demo.uuids (fun _ => none) Demo.ctx).1 Demo.pendingOnes Demo.growing
    (by decide) fun n => ?_
  have once : PaymentService.listing.Later (Demo.growing 0) (Demo.growing 1) :=
    ⟨by decide, by decide⟩
  cases n with
  | zero => exact ⟨fun r hr => hr, fun r hr => .inl hr⟩
  | succ n => exact once

end Dormitory
