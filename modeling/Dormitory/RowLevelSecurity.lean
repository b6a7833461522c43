import Dormitory.Schema
import Dormitory.Shards
import Dormitory.Txn.Parts

/-!
# Row-level security

The policy that every table carries, the settings that `withTenant` puts on its
transaction, and what any handler can then reach. Its statements read and change rows
of its own company only; the unique indexes and the foreign keys, which are checked on
the rows of all companies, leave it at that where companies share no ids.
-/

namespace Dormitory.Rls
open Txn

/-! ## The policy -/

/-- The settings of a transaction that the policies read. -/
structure Settings where
  companyId : Option String := none
  bypassRls : Option String := none
  deriving DecidableEq, Repr

inductive PgError where
  | invalidCompanyId (companyId : String)
  | invalidUuid (text : String)
  | rowSecurity
  | unique
  | foreignKey
  | aborted
  | noSavepoint
  | noTransaction
  | queueDown
  deriving DecidableEq, Repr

def hexDigit? (c : Char) : Option Nat :=
  if '0' ≤ c ∧ c ≤ '9' then some (c.toNat - '0'.toNat)
  else if 'a' ≤ c ∧ c ≤ 'f' then some (c.toNat - 'a'.toNat + 10)
  else if 'A' ≤ c ∧ c ≤ 'F' then some (c.toNat - 'A'.toNat + 10)
  else none

/-- `v::uuid`, of the 32 digits with hyphens between them. -/
def castUuid (v : String) : Option Id :=
  let digits := (v.toList.filter (· ≠ '-')).map hexDigit?
  if digits.length = 32 then
    digits.foldl (fun n d => n.bind fun n => d.map fun d => 16 * n + d) (some 0)
  else none

def appRlsBypass (s : Settings) : Bool := s.bypassRls.getD "false" = "true"

/-- The company of the transaction, or NULL. -/
def appCurrentCompanyId (s : Settings) : Except PgError (Option Id) :=
  match s.companyId with
  | none => .ok none
  | some v =>
    if v = "" then .ok none
    else match castUuid v with
      | some id => .ok (some id)
      | none => .error (.invalidUuid v)

/-- `OR` of SQL, where `none` is NULL. -/
def sqlOr : Option Bool → Option Bool → Option Bool
  | some true, _ | _, some true => some true
  | some false, b => b
  | none, some false | none, none => none

/-- The policy `tenant_isolation`, in its `USING` and in its `WITH CHECK`: NULL does
not let a row pass. -/
def tenantIsolation (s : Settings) : Except PgError (Id → Bool) := do
  let current ← appCurrentCompanyId s
  return fun companyId =>
    sqlOr (some (appRlsBypass s)) (current.map fun c => companyId = c) = some true

/-! ## Statements under the policy -/

/-- What the schema says of the rows `R` of all tables: the company of a row, the entries
it takes in the unique indexes beside its primary key, and the rows that its foreign keys
name. -/
structure Constraints (R K X : Type) where
  owner : R → Id
  entries : R → List X
  refs : R → List K

/-- A statement; an update does not change primary keys, and the API deletes nothing. -/
inductive Sql (R : Type) {K : Type} [Keyed R K] where
  | select (p : R → Bool)
  | insert (r : R)
  | update (p : R → Bool) (f : R → R) (same : ∀ r, key (f r) = key r)

section engine
variable {R K X : Type} [Keyed R K] [DecidableEq K] [DecidableEq X]

def Sql.Ans : Sql R → Type
  | select _ => List R
  | insert _ => R
  | update _ _ _ => Nat

namespace Constraints
variable (D : Constraints R K X)

/-- Another row, of whichever company, has one of the entries. -/
def Taken (t : Table R) (r : R) : Prop :=
  ∃ x ∈ t.rows, key x ≠ key r ∧ ∃ e ∈ D.entries r, e ∈ D.entries x

instance (t : Table R) (r : R) : Decidable (D.Taken t r) :=
  inferInstanceAs (Decidable (∃ x ∈ t.rows, key x ≠ key r ∧ ∃ e ∈ D.entries r, e ∈ D.entries x))

/-- A foreign key names no row, of whichever company. -/
def Dangles (t : Table R) (r : R) : Prop := ∃ k ∈ D.refs r, (t.find? k).isNone

instance (t : Table R) (r : R) : Decidable (D.Dangles t r) :=
  inferInstanceAs (Decidable (∃ k ∈ D.refs r, (t.find? k).isNone))

/-- The rows are stored one by one, each checked against the policy and then against the
unique indexes. -/
def storeRows (passes : Id → Bool) : List R → Table R → Except PgError (Table R)
  | [], t => .ok t
  | r :: rs, t =>
    if passes (D.owner r) = false then .error .rowSecurity
    else if D.Taken t r then .error .unique
    else storeRows passes rs (t.put r)

/-- The foreign keys are checked at the end of the statement. -/
def store (passes : Id → Bool) (t : Table R) (rs : List R) : Except PgError (List R) := do
  let after ← D.storeRows passes rs t
  if ∃ r ∈ rs, D.Dangles after r then .error .foreignKey else .ok rs

/-- What a statement answers and writes, where the policy lets the rows of `passes`
through: other rows are not there, and new rows are checked. -/
def execWith (passes : Id → Bool) (t : Table R) : (q : Sql R) → Except PgError (List R × q.Ans)
  | .select p => .ok ([], t.rows.filter fun r => passes (D.owner r) && p r)
  | .insert r =>
    if passes (D.owner r) = false then .error .rowSecurity
    else if (t.find? (key r)).isSome then .error .unique
    else do
      let ws ← D.store passes t [r]
      .ok (ws, r)
  | .update p f _ => do
    let ws ← D.store passes t ((t.rows.filter fun r => passes (D.owner r) && p r).map f)
    .ok (ws, ws.length)

def exec (s : Settings) (t : Table R) (q : Sql R) : Except PgError (List R × q.Ans) := do
  D.execWith (← tenantIsolation s) t q

end Constraints
end engine

/-! ## `withTenant` -/

/-- `UUID_RE`. -/
def uuidRe (text : String) : Bool :=
  match text.toList.splitOn '-' with
  | [a, b, c, d, e] =>
    (a ++ b ++ c ++ d ++ e).all (fun x => (hexDigit? x).isSome) && a.length = 8 && b.length = 4 &&
      c.length = 4 && d.length = 4 && e.length = 12 &&
      c.head?.any (fun x => '1' ≤ x && x ≤ '8') &&
      d.head?.any fun x => x ∈ ['8', '9', 'a', 'b', 'A', 'B']
  | _ => false

structure TenantContext where
  companyId : String
  bypassRls : Bool := false
  deriving DecidableEq, Repr

/-- The company that the context names. -/
def TenantContext.company (ctx : TenantContext) : Id := (castUuid ctx.companyId).getD 0

theorem foldl_digits {digits : List (Option Nat)} (all : ∀ d ∈ digits, d.isSome) (n : Nat) :
    (digits.foldl (fun n d => n.bind fun n => d.map fun d => 16 * n + d) (some n)).isSome := by
  induction digits generalizing n with
  | nil => rfl
  | cons d digits ih =>
    obtain ⟨first, rest⟩ := List.forall_mem_cons.mp all
    obtain ⟨d, rfl⟩ := Option.isSome_iff_exists.mp first
    exact ih rest _

/-- **What the guard lets through, the cast in the policy takes.** -/
theorem castUuid_of_uuidRe {text : String} (valid : uuidRe text) : (castUuid text).isSome := by
  unfold uuidRe at valid
  split at valid
  · rename_i a b c d e parts
    simp only [Bool.and_eq_true, List.all_eq_true, decide_eq_true_eq] at valid
    obtain ⟨⟨⟨⟨⟨⟨⟨hex, ha⟩, hb⟩, hc⟩, hd⟩, he⟩, -⟩, -⟩ := valid
    have whole : text.toList = ['-'].intercalate [a, b, c, d, e] := by
      rw [← parts]
      exact (List.intercalate_splitOn '-').symm
    have digit : ∀ x ∈ a ++ b ++ c ++ d ++ e, decide (x ≠ '-') = true := by
      intro x hx
      apply decide_eq_true
      intro same
      have hexadecimal := hex x hx
      rw [same] at hexadecimal
      cases hexadecimal
    have digits : text.toList.filter (fun x => decide (x ≠ '-')) = a ++ b ++ c ++ d ++ e := by
      refine Eq.trans ?_ (List.filter_eq_self.mpr digit)
      rw [whole]
      simp [List.intercalate]
    have length : ((a ++ b ++ c ++ d ++ e).map hexDigit?).length = 32 := by
      simp only [List.length_map, List.length_append]
      omega
    rw [castUuid, digits, if_pos length]
    refine foldl_digits (fun d hd => ?_) 0
    obtain ⟨x, hx, rfl⟩ := List.mem_map.mp hd
    exact hex x hx
  · cases valid

section programs
variable (R : Type) {K : Type} [Keyed R K] [DecidableEq K] (X : Type) [DecidableEq X] (J : Type)

/-- What a handler sends: statements, with no say in the settings. -/
def handlers : Sig where
  Stmt := Sql R
  Ans := Sql.Ans
  Err := PgError
  St := Table R
  Write := R
  Lock := K ⊕ X
  Job := J

/-- What the server gets: statements of a transaction with its settings. -/
def connections : Sig where
  Stmt := Settings × Sql R
  Ans q := q.2.Ans
  Err := PgError
  St := Table R
  Write := R
  Lock := K ⊕ X
  Job := J

variable {R X J}

instance : DecidableEq (connections R X J).Lock := inferInstanceAs (DecidableEq (K ⊕ X))

/-- A row that is written is locked, and with it its entries in the unique indexes. -/
def engine (D : Constraints R K X) : Engine (connections R X J) where
  exec q t := D.exec q.1 t q.2
  apply := Table.put
  locks (r : R) := .inl (key r) :: (D.entries r).map .inr
  aborted := .aborted
  noSavepoint := .noSavepoint
  queueDown := .queueDown

variable {α : Type}

/-- The proxy sends every statement of the handler through the open transaction. -/
def route (s : Settings) : Prog (handlers R X J) α → Prog (connections R X J) α
  | .ret a => .ret a
  | .fail e => .fail e
  | .sql q k => .sql (s, q) fun r => route s (k r)
  | .ctl c k => .ctl c fun r => route s (k r)
  | .send j k => .send j fun r => route s (k r)

/-- A connection of the pool has no settings, or those that an ended transaction leaves:
the empty string. -/
structure Settings.Idle (s : Settings) : Prop where
  companyId : s.companyId = none ∨ s.companyId = some ""
  bypassRls : s.bypassRls ≠ some "true"

/-- The settings that `withTenant` puts on its transaction. -/
def TenantContext.settings (ctx : TenantContext) (connection : Settings) : Settings :=
  if ctx.bypassRls then { connection with bypassRls := some "true" }
  else { connection with companyId := some ctx.companyId }

def withTenant (ctx : TenantContext) (connection : Settings) (fn : Prog (handlers R X J) α) :
    Prog (connections R X J) α :=
  if !ctx.bypassRls && !uuidRe ctx.companyId then Prog.throw (.invalidCompanyId ctx.companyId)
  else route (ctx.settings connection) fn

/-- Outside `withTenant` the proxy sends each statement to `rawPrisma`: it commits by
itself, on some connection and on what is committed by then, and the handler goes on
after an error. The answer, and all rows that are written. -/
def outside (D : Constraints R K X) (connection : Nat → Settings) (db : Nat → Table R)
    (queueUp : Nat → Bool) : Nat → Prog (handlers R X J) α → Except PgError α × List R
  | _, .ret a => (.ok a, [])
  | _, .fail e => (.error e, [])
  | n, .sql q k =>
    match D.exec (connection n) (db n) q with
    | .ok (ws, a) =>
      let rest := outside D connection db queueUp (n + 1) (k (.ok a))
      (rest.1, ws ++ rest.2)
    | .error e => outside D connection db queueUp (n + 1) (k (.error e))
  | n, .ctl _ k => outside D connection db queueUp (n + 1) (k (.error .noTransaction))
  | n, .send _ k =>
    outside D connection db queueUp (n + 1) (k (if queueUp n then .ok () else .error .queueDown))

end programs

/-! ## One statement -/

section statements
variable {R K X : Type} [Keyed R K] [DecidableEq K] [DecidableEq X] {D : Constraints R K X}
  {home : K → Id} {place : X → Id} {c d : Id} {t : Table R} {s : Settings}

/-- The entries that a row takes and the rows that it names are its company's. -/
structure Constraints.Local (D : Constraints R K X) (home : K → Id) (place : X → Id) (r : R) :
    Prop where
  entries : ∀ e ∈ D.entries r, place e = D.owner r
  refs : ∀ k ∈ D.refs r, home k = D.owner r

/-- The rows, each with a primary key of its company. -/
abbrev Housed (D : Constraints R K X) (home : K → Id) (place : X → Id) (t : Table R) : Prop :=
  t.Housed home D.owner (D.Local home place)

/-- A row that the company writes. -/
structure Own (D : Constraints R K X) (home : K → Id) (place : X → Id) (c : Id) (r : R) : Prop where
  owner : D.owner r = c
  key : home (key r) = c
  rest : D.Local home place r

/-- What the statement makes for the company has keys and entries of the company, and
names rows of the company. -/
def Sql.Draws (D : Constraints R K X) (home : K → Id) (place : X → Id) (c : Id) : Sql R → Prop
  | insert r => D.owner r = c → Own D home place c r
  | update _ f _ => ∀ r, Own D home place c r → D.owner (f r) = c → D.Local home place (f r)
  | select _ => True

/-- The settings name the company. -/
structure Settings.Name (c : Id) (s : Settings) : Prop where
  companyId : ∃ text, s.companyId = some text ∧ castUuid text = some c
  bypassRls : s.bypassRls ≠ some "true"

theorem appRlsBypass_false (plain : s.bypassRls ≠ some "true") : appRlsBypass s = false := by
  unfold appRlsBypass
  cases value : s.bypassRls with
  | none => decide
  | some v =>
    refine decide_eq_false fun same => plain ?_
    rw [value]
    exact congrArg some same

/-- **The policy in a company's transaction**: its rows pass, and no others. -/
theorem tenantIsolation_named (named : s.Name c) :
    tenantIsolation s = .ok fun companyId => decide (companyId = c) := by
  obtain ⟨⟨text, setting, cast⟩, plain⟩ := named
  have nonempty : text ≠ "" := by
    rintro rfl
    cases cast
  have current : appCurrentCompanyId s = .ok (some c) := by
    simp only [appCurrentCompanyId, setting, if_neg nonempty, cast]
  rw [tenantIsolation, current, appRlsBypass_false plain]
  refine congrArg Except.ok (funext fun companyId => ?_)
  by_cases same : companyId = c <;> simp [same, sqlOr]

/-- **The policy between transactions**: no row passes. -/
theorem tenantIsolation_idle (idle : s.Idle) : tenantIsolation s = .ok fun _ => false := by
  have current : appCurrentCompanyId s = .ok none := by
    rcases idle.companyId with unset | empty
    · simp only [appCurrentCompanyId, unset]
    · simp only [appCurrentCompanyId, empty, if_true]
  rw [tenantIsolation, current, appRlsBypass_false idle.bypassRls]
  rfl

theorem exec_named (named : s.Name c) (q : Sql R) :
    D.exec s t q = D.execWith (fun companyId => decide (companyId = c)) t q := by
  rw [Constraints.exec, tenantIsolation_named named]
  rfl

/-! ### The checks on all rows -/

section checks
variable (housed : Housed D home place t) {r : R} (own : Own D home place c r)
include housed own

omit [DecidableEq K] [DecidableEq X] in
/-- A row with an entry of the company is the company's. -/
theorem taken_part : D.Taken (t.shard D.owner c) r ↔ D.Taken t r := by
  apply Table.exists_shard
  intro x hx shares
  obtain ⟨-, e, mine, theirs⟩ := shares
  rw [← (housed.rows x hx).entries e theirs, own.rest.entries e mine]
  exact own.owner

omit [DecidableEq X] in
theorem dangles_part : D.Dangles (t.shard D.owner c) r ↔ D.Dangles t r := by
  refine exists_congr fun k => and_congr_right fun names => ?_
  rw [housed.find? ((own.rest.refs k names).trans own.owner)]

end checks

omit [DecidableEq X] in
theorem Own.put (housed : Housed D home place t) {r : R} (own : Own D home place c r) :
    Housed D home place (t.put r) := housed.put (own.key.trans own.owner.symm) own.rest

omit [DecidableEq X] in
theorem Own.shard_put (housed : Housed D home place t) {r : R} (own : Own D home place c r) :
    (t.put r).shard D.owner c = (t.shard D.owner c).put r :=
  Table.Housed.shard_put housed (own.key.trans own.owner.symm) own.owner

/-- Storing rows of the company goes in its part as it goes in the whole. -/
theorem storeRows_part {rs : List R} (housed : Housed D home place t)
    (own : ∀ r ∈ rs, D.owner r = c → Own D home place c r) :
    D.storeRows (fun companyId => decide (companyId = c)) rs (t.shard D.owner c) =
        (D.storeRows (fun companyId => decide (companyId = c)) rs t).map (Table.shard D.owner c) ∧
      ∀ after, D.storeRows (fun companyId => decide (companyId = c)) rs t = .ok after →
        Housed D home place after ∧ ∀ r ∈ rs, Own D home place c r := by
  induction rs generalizing t with
  | nil =>
    refine ⟨rfl, fun after stored => ?_⟩
    cases stored
    exact ⟨housed, List.forall_mem_nil _⟩
  | cons r rs ih =>
    obtain ⟨here, rest⟩ := List.forall_mem_cons.mp own
    simp only [Constraints.storeRows, decide_eq_false_iff_not]
    by_cases mine : D.owner r = c
    · have fits := here mine
      simp only [mine, not_true_eq_false, if_false, taken_part housed fits]
      by_cases taken : D.Taken t r
      · simp only [taken, if_true]
        exact ⟨rfl, fun _ stored => nomatch stored⟩
      · simp only [taken, if_false, ← fits.shard_put housed]
        obtain ⟨same, after⟩ := ih (fits.put housed) rest
        refine ⟨same, fun t' stored => ?_⟩
        obtain ⟨housed', all⟩ := after t' stored
        exact ⟨housed', List.forall_mem_cons.mpr ⟨fits, all⟩⟩
    · simp only [mine, not_false_eq_true, if_true]
      exact ⟨rfl, fun _ stored => nomatch stored⟩

theorem store_part {rs : List R} (housed : Housed D home place t)
    (own : ∀ r ∈ rs, D.owner r = c → Own D home place c r) :
    D.store (fun companyId => decide (companyId = c)) (t.shard D.owner c) rs =
        D.store (fun companyId => decide (companyId = c)) t rs ∧
      ∀ ws, D.store (fun companyId => decide (companyId = c)) t rs = .ok ws →
        ∀ w ∈ ws, Own D home place c w := by
  obtain ⟨same, after⟩ := storeRows_part housed own
  unfold Constraints.store
  rw [same]
  cases stored : D.storeRows (fun companyId => decide (companyId = c)) rs t with
  | error e => exact ⟨rfl, fun ws no => nomatch no⟩
  | ok t' =>
    obtain ⟨housed', all⟩ := after t' stored
    have dangling : (∃ r ∈ rs, D.Dangles (t'.shard D.owner c) r) ↔ ∃ r ∈ rs, D.Dangles t' r :=
      exists_congr fun r => and_congr_right fun hr => dangles_part housed' (all r hr)
    simp only [Except.map, Except.bind, bind, dangling]
    refine ⟨trivial, fun ws ran => ?_⟩
    split at ran
    · cases ran
    · cases ran
      exact all

omit [DecidableEq K] [DecidableEq X] in
/-- The rows that an update makes of the company's rows. -/
theorem updated_own (housed : Housed D home place t) {p : R → Bool} {f : R → R}
    {same : ∀ r, key (f r) = key r}
    (draws : (Sql.update p f same).Draws D home place c) :
    ∀ r ∈ (t.rows.filter fun r => decide (D.owner r = c) && p r).map f,
      D.owner r = c → Own D home place c r := by
  intro r' hr' mine
  obtain ⟨r, hr, rfl⟩ := List.mem_map.mp hr'
  obtain ⟨stored, passes⟩ := List.mem_filter.mp hr
  rw [Bool.and_eq_true, decide_eq_true_iff] at passes
  have before : Own D home place c r :=
    ⟨passes.1, (housed.keys r stored).trans passes.1, housed.rows r stored⟩
  refine ⟨mine, ?_, draws r before mine⟩
  rw [same]
  exact before.key

omit [DecidableEq K] [DecidableEq X] in
theorem inserted_own {r : R} (draws : (Sql.insert r).Draws D home place c) :
    ∀ r' ∈ [r], D.owner r' = c → Own D home place c r' := by
  intro r' hr'
  obtain rfl := List.mem_singleton.mp hr'
  exact draws

variable (named : s.Name c) (housed : Housed D home place t)
include named housed

theorem exec_own {q : Sql R} (draws : q.Draws D home place c) {ws : List R} {a : q.Ans}
    (ran : D.exec s t q = .ok (ws, a)) : ∀ w ∈ ws, Own D home place c w := by
  rw [exec_named named] at ran
  cases q with
  | select p =>
    cases ran
    exact List.forall_mem_nil _
  | insert r =>
    simp only [Constraints.execWith] at ran
    split at ran
    · cases ran
    split at ran
    · cases ran
    have all := store_part housed (inserted_own draws)
    cases stored : D.store (fun companyId => decide (companyId = c)) t [r] with
    | error e =>
      rw [stored] at ran
      cases ran
    | ok ws' =>
      rw [stored] at ran
      cases ran
      exact all.2 _ stored
  | update p f same =>
    have all := store_part housed (updated_own housed draws)
    simp only [Constraints.execWith] at ran
    cases stored : D.store (fun companyId => decide (companyId = c)) t
        ((t.rows.filter fun r => decide (D.owner r = c) && p r).map f) with
    | error e =>
      rw [stored] at ran
      cases ran
    | ok ws' =>
      rw [stored] at ran
      cases ran
      exact all.2 _ stored

/-- A statement finds among the rows of the company what it finds among all. -/
theorem exec_part {q : Sql R} (draws : q.Draws D home place c) :
    D.exec s (t.shard D.owner c) q = D.exec s t q := by
  have rows : ∀ p : R → Bool, (t.shard D.owner c).rows.filter
      (fun r => decide (D.owner r = c) && p r) = t.rows.filter
        fun r => decide (D.owner r = c) && p r := by
    intro p
    simp only [Table.shard, List.filter_filter]
    apply List.filter_congr
    intro r _
    cases decide (D.owner r = c) <;> simp
  rw [exec_named named, exec_named named]
  cases q with
  | select p => simp only [Constraints.execWith, rows]
  | update p f same =>
    simp only [Constraints.execWith, rows,
      (store_part housed (updated_own housed draws)).1]
  | insert r =>
    by_cases mine : D.owner r = c
    · have found : (t.shard D.owner c).find? (key r) = t.find? (key r) :=
        housed.find? (draws mine).key
      simp only [Constraints.execWith, found,
        (store_part housed (inserted_own draws)).1]
    · simp only [Constraints.execWith, mine, decide_false, if_true]

end statements

/-! ## Any handler -/

section handlers
variable {R K X J α : Type} [Keyed R K] [DecidableEq K] [DecidableEq X] {D : Constraints R K X}
  {home : K → Id} {place : X → Id} {c d : Id}

/-- All statements of the handler draw the company's keys, whatever they are answered. -/
def Draws (D : Constraints R K X) (home : K → Id) (place : X → Id) (c : Id) :
    Prog (handlers R X J) α → Prop
  | .ret _ | .fail _ => True
  | .sql q k => Sql.Draws D home place c q ∧ ∀ r, Draws D home place c (k r)
  | .ctl _ k => ∀ r, Draws D home place c (k r)
  | .send _ k => ∀ r, Draws D home place c (k r)

/-- A statement of the company's transactions. -/
def Asked (D : Constraints R K X) (home : K → Id) (place : X → Id) (c : Id)
    (q : (connections R X J).Stmt) : Prop :=
  q.1.Name c ∧ q.2.Draws D home place c

theorem connections_confined (D : Constraints R K X) (home : K → Id) (place : X → Id) (c : Id) :
    Confined (engine (J := J) D) (Housed D home place) (Asked D home place c)
      (Own (R := R) D home place c) where
  writes asked housed ran := exec_own asked.1 housed asked.2 ran
  keeps housed own := own.put housed

theorem connections_inside (D : Constraints R K X) (home : K → Id) (place : X → Id) (c : Id) :
    Inside (engine (J := J) D) (Housed D home place) (Asked D home place c)
      (Own (R := R) D home place c) (Table.shard D.owner c) where
  reads asked housed := exec_part asked.1 housed asked.2
  stores housed own := own.shard_put housed

theorem connections_outside (D : Constraints R K X) (home : K → Id) (place : X → Id)
    (apart : c ≠ d) :
    Outside (engine (J := J) D) (Housed D home place) (Own (R := R) D home place c)
      (Table.shard D.owner d) := by
  intro t r housed own
  exact Table.Housed.shard_put_ne housed (own.key.trans own.owner.symm)
    fun same => apart (own.owner.symm.trans same)

theorem route_asks {I : Table R → Prop} {s : Settings} (named : s.Name c)
    {fn : Prog (handlers R X J) α} (draws : Draws D home place c fn) :
    (route s fn).Asks (engine D) I (Asked D home place c) fun _ => True := by
  induction fn with
  | ret a => trivial
  | fail e => trivial
  | sql q k ih =>
    exact ⟨⟨named, draws.1⟩, fun _ _ a _ _ => ih _ (draws.2 (.ok a)),
      fun e => ih _ (draws.2 (.error e))⟩
  | ctl m k ih => exact fun r => ih r (draws r)
  | send j k ih => exact fun r => ih r (draws r)

theorem withTenant_asks {I : Table R → Prop} {ctx : TenantContext} (plain : ctx.bypassRls = false)
    {connection : Settings} (idle : connection.Idle) {fn : Prog (handlers R X J) α}
    (draws : Draws D home place ctx.company fn) :
    (withTenant ctx connection fn).Asks (engine D) I (Asked D home place ctx.company)
      fun _ => True := by
  unfold withTenant
  split
  · exact Prog.Asks.throw _
  · rename_i accepted
    have valid : uuidRe ctx.companyId = true := by simpa [plain] using accepted
    obtain ⟨company, cast⟩ := Option.isSome_iff_exists.mp (castUuid_of_uuidRe valid)
    have settings : ctx.settings connection =
        { connection with companyId := some ctx.companyId } := by
      simp [TenantContext.settings, plain]
    have named : (ctx.settings connection).Name ctx.company := by
      rw [settings]
      exact ⟨⟨ctx.companyId, rfl, by simp [TenantContext.company, cast]⟩, idle.bypassRls⟩
    exact route_asks named draws

section runs
variable {ι : Type} [DecidableEq ι] [Fintype ι]

/-- Every request in its own `withTenant`, about to start. -/
def start (ctx : ι → TenantContext) (connection : ι → Settings)
    (fn : ι → Prog (handlers R X J) α) (t : Table R) : Config (connections R X J) ι α :=
  Config.start t fun i => withTenant (ctx i) (connection i) (fn i)

/-- **The policies isolate the companies.** Interleaved requests, each in the
transaction of its company, run exactly as the requests of every company do on that
company's rows, where companies share no keys, no entries of unique indexes, and no
references. -/
theorem policies_isolate (D : Constraints R K X) (home : K → Id) (place : X → Id)
    (ctx : ι → TenantContext) (plain : ∀ i, (ctx i).bypassRls = false)
    (connection : ι → Settings) (idle : ∀ i, (connection i).Idle)
    (fn : ι → Prog (handlers R X J) α)
    (draws : ∀ i, Draws D home place (ctx i).company (fn i)) (t : Table R)
    (housed : Housed D home place t) (as : List (Action ι)) :
    (∀ all, (start ctx connection fn t).run (engine D) as = some all →
      ∀ c, ∃ own, (start ctx connection fn (t.shard D.owner c)).run (engine D)
          (actions (fun i => (ctx i).company = c) as) = some own ∧
        own.db = all.db.shard D.owner c ∧
        (∀ i, (ctx i).company = c → own.txs i = (all.txs i).within (Table.shard D.owner c)) ∧
        own.jobs = all.jobs.filter fun j => (ctx j.1).company = c) ∧
    ((∀ a ∈ as, a.request ≠ none) →
      (∀ c, ∃ own, (start ctx connection fn (t.shard D.owner c)).run (engine D)
        (actions (fun i => (ctx i).company = c) as) = some own) →
      ∃ all, (start ctx connection fn t).run (engine D) as = some all) := by
  have confined (i : ι) := connections_confined (J := J) D home place (ctx i).company
  have inside (i : ι) := connections_inside (J := J) D home place (ctx i).company
  have outside (i : ι) (c : Id) (apart : (ctx i).company ≠ c) :=
    connections_outside (J := J) D home place apart
  have parted : (start ctx connection fn t).Parted (engine D) (Housed D home place)
      (fun i => Asked D home place (ctx i).company)
      (fun i => Own (R := R) D home place (ctx i).company) fun _ _ => True :=
    Config.start_parted housed fun i => withTenant_asks (plain i) (idle i) (draws i)
  have cut (c : Id) : (start ctx connection fn t).Cut (engine D) (Table.shard D.owner c)
      (fun i => (ctx i).company = c) (start ctx connection fn (t.shard D.owner c)) :=
    Config.start_cut (engine D) (Table.shard D.owner c) t _
  constructor
  · intro all ran c
    obtain ⟨own, ran', cut'⟩ := (cut c).run confined (fun i here => here ▸ inside i)
      (fun i other => outside i c other) parted ran
    exact ⟨own, ran', cut'.db, cut'.txs, cut'.jobs⟩
  · intro requests alone
    refine Config.Cut.runs confined inside outside ?_ parted cut requests alone
    intro i j apart w w' own own' l locked locked'
    have here : ∀ {c} {r : R}, Own D home place c r → l ∈ (engine (J := J) D).locks r →
        Sum.elim home place l = c := by
      intro c r own locked
      rcases List.mem_cons.mp locked with rfl | entry
      · exact own.key
      · obtain ⟨e, taken, rfl⟩ := List.mem_map.mp entry
        exact (own.rest.entries e taken).trans own.owner
    exact apart ((here own locked).symm.trans (here own' locked'))

end runs

/-! ## Outside `withTenant` -/

/-- Between transactions a statement finds nothing and writes nothing. -/
theorem exec_denied {s : Settings} (idle : s.Idle) (t : Table R) (q : Sql R) :
    D.exec s t q = D.exec s default q ∧ ∀ ws a, D.exec s t q = .ok (ws, a) → ws = [] := by
  have denied (t : Table R) : D.exec s t q = D.execWith (fun _ => false) t q := by
    rw [Constraints.exec, tenantIsolation_idle idle]
    rfl
  have rows (t : Table R) (p : R → Bool) :
      t.rows.filter (fun r => (fun _ => false) (D.owner r) && p r) = [] :=
    List.filter_eq_nil_iff.mpr fun _ _ => Bool.false_ne_true
  rw [denied, denied]
  cases q with
  | insert r => exact ⟨rfl, fun ws a ran => nomatch ran⟩
  | select p =>
    simp only [Constraints.execWith, rows]
    refine ⟨trivial, fun ws a ran => ?_⟩
    cases ran
    rfl
  | update p f same =>
    simp only [Constraints.execWith, rows]
    refine ⟨rfl, fun ws a ran => ?_⟩
    cases ran
    rfl

/-- Whatever is committed, the handler is told what the empty database would tell it. -/
theorem outside_denied {connection : Nat → Settings} (idle : ∀ n, (connection n).Idle)
    (db : Nat → Table R) (queueUp : Nat → Bool) (fn : Prog (handlers R X J) α) (n : Nat) :
    outside D connection db queueUp n fn =
        outside D connection (fun _ => default) queueUp n fn ∧
      (outside D connection db queueUp n fn).2 = [] := by
  induction fn generalizing n with
  | ret a => exact ⟨rfl, rfl⟩
  | fail e => exact ⟨rfl, rfl⟩
  | sql q k ih =>
    obtain ⟨same, nothing⟩ := exec_denied (D := D) (idle n) (db n) q
    simp only [outside, ← same]
    cases ran : D.exec (connection n) (db n) q with
    | error e => exact ih (.error e) (n + 1)
    | ok r =>
      obtain ⟨ws, a⟩ := r
      obtain rfl := nothing ws a ran
      obtain ⟨rest, none⟩ := ih (.ok a) (n + 1)
      simp only [rest] at none ⊢
      exact ⟨trivial, none⟩
  | ctl m k ih => exact ih _ (n + 1)
  | send j k ih => exact ih _ (n + 1)

/-- **Default deny.** Outside `withTenant`, on whatever connections of the pool and
whatever others commit meanwhile, a handler is told what the empty database would tell
it, and writes nothing. -/
theorem no_context_denied (D : Constraints R K X) (fn : Prog (handlers R X J) α)
    (connection : Nat → Settings) (idle : ∀ n, (connection n).Idle) (db : Nat → Table R)
    (queueUp : Nat → Bool) :
    (outside D connection db queueUp 0 fn).1 =
        (outside D connection (fun _ => default) queueUp 0 fn).1 ∧
      (outside D connection db queueUp 0 fn).2 = [] := by
  obtain ⟨same, nothing⟩ := outside_denied (D := D) idle db queueUp fn 0
  exact ⟨congrArg Prod.fst same, nothing⟩

end handlers

namespace Demo

/-- Payments, and slips with a unique reference to their payment. -/
inductive Paper where
  | payment (id companyId : Id)
  | slip (id companyId paymentId : Id)
  deriving DecidableEq

namespace Paper

def ids : Paper → Bool × Id
  | payment id _ => (false, id)
  | slip id _ _ => (true, id)

instance : Keyed Paper (Bool × Id) := ⟨ids⟩

end Paper

def papers : Constraints Paper (Bool × Id) Id where
  owner
    | .payment _ companyId | .slip _ companyId _ => companyId
  entries
    | .payment _ _ => []
    | .slip _ _ paymentId => [paymentId]
  refs
    | .payment _ _ => []
    | .slip _ _ paymentId => [(false, paymentId)]

/-- The contexts of two companies. -/
def contexts : Fin 2 → TenantContext
  | 0 => ⟨"00000000-0000-4000-8000-000000000001", false⟩
  | 1 => ⟨"00000000-0000-4000-8000-000000000002", false⟩

/-- A fresh connection and one that was used before. -/
def pool : Fin 2 → Settings
  | 0 => {}
  | 1 => ⟨some "", some ""⟩

/-- A handler that stores a slip for a payment and reads all papers. -/
def register (id companyId paymentId : Id) : Prog (handlers Paper Id Empty) (List Paper) := do
  let _ ← Prog.query (σ := handlers Paper Id Empty) (.insert (.slip id companyId paymentId))
  Prog.query (σ := handlers Paper Id Empty) (.select fun _ => true)

/-- Each company has its own id in place of all ids. -/
def registers (i : Fin 2) : Prog (handlers Paper Id Empty) (List Paper) :=
  register (contexts i).company (contexts i).company (contexts i).company

theorem registers_draws (i : Fin 2) :
    Draws papers Prod.snd id (contexts i).company (registers i) := by
  have own : Own papers Prod.snd id (contexts i).company
      (.slip (contexts i).company (contexts i).company (contexts i).company) := by
    refine ⟨rfl, rfl, fun e taken => ?_, fun k named => ?_⟩
    · exact List.mem_singleton.mp taken
    · rw [List.mem_singleton.mp named]
      rfl
  refine ⟨fun _ => own, fun r => ?_⟩
  cases r with
  | error e => trivial
  | ok slip => exact ⟨trivial, fun r => by cases r <;> trivial⟩

/-- A payment of either company. -/
def payments : Table Paper :=
  ⟨[.payment (contexts 0).company (contexts 0).company,
    .payment (contexts 1).company (contexts 1).company], by decide⟩

theorem payments_housed : Housed papers Prod.snd id payments := by
  have bare : ∀ c : Id, papers.Local Prod.snd id (.payment c c) :=
    fun c => ⟨fun e no => (nomatch no), fun k no => (nomatch no)⟩
  constructor
  · intro p hp
    rcases List.mem_cons.mp hp with rfl | hp
    · rfl
    · obtain rfl := List.mem_singleton.mp hp
      rfl
  · intro p hp
    rcases List.mem_cons.mp hp with rfl | hp
    · exact bare _
    · obtain rfl := List.mem_singleton.mp hp
      exact bare _

theorem pool_idle (i : Fin 2) : (pool i).Idle := by
  match i with
  | 0 => exact ⟨.inl rfl, by decide⟩
  | 1 => exact ⟨.inr rfl, by decide⟩

/-- It stores a slip, whatever comes of it, and reads all papers. -/
def insists : Prog (handlers Paper Id Empty) (List Paper) :=
  .sql (.insert (.slip 5 (contexts 0).company (contexts 0).company)) fun _ =>
    Prog.query (σ := handlers Paper Id Empty) (.select fun _ => true)

/-- Both in turn, and their commits. -/
def turns : List (Action (Fin 2)) :=
  [.advance 0, .advance 1, .advance 0, .advance 1, .advance 0, .advance 1]

end Demo

open Rls.Demo in
/-- Both companies store a slip, and each reads its own payment and slip. -/
theorem policies_isolate_slips :
    ∃ all, (start contexts pool registers payments).run (engine papers) turns = some all ∧
      all.db.rows.length = 4 ∧
      ∀ c, ∃ own, (start contexts pool registers (payments.shard papers.owner c)).run
          (engine papers) (actions (fun i => (contexts i).company = c) turns) = some own ∧
        own.db = all.db.shard papers.owner c := by
  have ran : ((start contexts pool registers payments).run (engine papers) turns).map
      (fun all => all.db.rows.length) = some 4 := by decide
  obtain ⟨all, ran, stored⟩ := Option.map_eq_some_iff.mp ran
  refine ⟨all, ran, stored, fun c => ?_⟩
  obtain ⟨own, ran', same, -⟩ := (policies_isolate papers Prod.snd id contexts (by decide) pool
    pool_idle registers registers_draws payments payments_housed turns).1 all ran c
  exact ⟨own, ran', same⟩

open Rls.Demo in
/-- A handler that goes on after a refused INSERT finds nothing, in spite of the
payments. -/
theorem no_context_denied_slip :
    outside papers (fun n => pool (if n = 0 then 0 else 1)) (fun _ => payments) (fun _ => true) 0
        insists = (.ok [], []) ∧
      (outside papers (fun n => pool (if n = 0 then 0 else 1)) (fun _ => payments) (fun _ => true) 0
        insists).2 = [] :=
  ⟨by decide, (no_context_denied papers insists _ (fun _ => pool_idle _) _ _).2⟩

end Dormitory.Rls
