import Dormitory.ContractDates
import Dormitory.Odometer

/-!
# Chains of readings

Every reading follows on from the value that the one before it showed. Here is
which orders of entering them keep it so, and that the consumptions then sum to
what the meter shows.
-/

namespace Dormitory

theorem Period.index_inj {p q : Period} (same : p.index = q.index) : p = q := by
  obtain ⟨y, m, _, low, high⟩ := p
  obtain ⟨y', m', _, low', high'⟩ := q
  simp only [Period.index] at same
  simp only [Period.mk.injEq]
  omega

theorem Numeric.store_of_fits {p s : Nat} {x : Decimal} {n : Int} (value : x.toFixed s = n)
    (fits : n.natAbs < 10 ^ p) : Numeric.store p s x = some ⟨n, fits⟩ := by
  subst value
  exact dif_pos fits

theorem Numeric.store_of_not_fits {p s : Nat} {x : Decimal} {n : Int} (value : x.toFixed s = n)
    (tooLarge : ¬ n.natAbs < 10 ^ p) : Numeric.store p s x = none := by
  subst value
  exact dif_neg tooLarge

namespace Leasing
open Txn

/-- The value in hundredths, as the column stores it. -/
def MeterValue.units (v : MeterValue) : Int := toStorage v.value

/-- What `meterValueSchema` accepts: ten digits and two decimals. -/
def MeterValue.Accepted (v : MeterValue) : Prop :=
  v.value.scale ≤ 2 ∧ v.value.coeff.natAbs < 10 ^ (10 + v.value.scale)

instance (v : MeterValue) : Decidable v.Accepted := inferInstanceAs (Decidable (_ ∧ _))

theorem MeterValue.Accepted.fits {v : MeterValue} (h : v.Accepted) : v.units.natAbs < 10 ^ 12 := by
  obtain ⟨text, coeff, scale⟩ := v
  obtain ⟨decimals, digits⟩ := h
  simp only at decimals digits
  simp only [units, toStorage, Decimal.toFixed, moneyScale, decimals, if_true, Int.natAbs_mul]
  interval_cases scale <;> simp at digits ⊢ <;> omega

/-- What the meter showed before the period, as company `c` sees it. -/
def previousUnits (c : Id) (e : Estate) (meterId : Id) (period : Period) : Int :=
  ((priorReading c e meterId period).map fun r => r.valueCurrent.units).getD 0

namespace ReadingService

/-- A decimal of two digits less another is exact. -/
theorem moneySub_accepted {v : MeterValue} (h : v.Accepted) (p : Numeric 12 2) :
    moneySub v.value p.toDecimal = satang (v.units - p.units) := by
  have flip : p.toDecimal.neg = satang (-p.units) := rfl
  have fits := h.fits
  have fits' := p.fits
  rw [moneySub, Decimal.minus, flip, Decimal.plus_satang h.1, Decimal.round_small]
  · rfl
  · change (v.units + -p.units).natAbs < _
    omega

/-- The value is below the one before it, or a `-0` after a zero. -/
def BelowPrevious (v : MeterValue) (previous : Int) : Prop :=
  v.units < previous ∨ v.NegativeZero ∧ previous = 0

instance (v : MeterValue) (previous : Int) : Decidable (BelowPrevious v previous) :=
  inferInstanceAs (Decidable (_ ∨ _))

theorem negativeFrom_iff {v : MeterValue} (h : v.Accepted) (p : Numeric 12 2) :
    v.NegativeFrom p.toDecimal ↔ BelowPrevious v p.units := by
  have less : (moneySub v.value p.toDecimal).coeff < 0 ↔ v.units < p.units := by
    rw [moneySub_accepted h]
    exact sub_neg
  rw [MeterValue.NegativeFrom, less]
  rfl

/-- `create` goes through: its meter is visible, the value is not below the one
before it, and the row fits its columns under a new key and a free period. -/
def Creatable (ctx : Ctx) (newId : Id) (input : CreateReadingInput) (e : Estate) : Prop :=
  (∃ m ∈ e.meters.find? input.meterId, m.companyId = ctx.companyId) ∧
    ¬ BelowPrevious input.valueCurrent
      (previousUnits ctx.companyId e input.meterId input.period) ∧
    input.valueCurrent.units - previousUnits ctx.companyId e input.meterId input.period < 10 ^ 12 ∧
    (∀ k ∈ input.photoKey, k.length ≤ 512) ∧ e.readings.find? newId = none ∧
    ∀ r ∈ e.readings.rows, ¬(r.meterId = input.meterId ∧ r.period = input.period)

instance (ctx : Ctx) (newId : Id) (input : CreateReadingInput) (e : Estate) :
    Decidable (Creatable ctx newId input e) :=
  inferInstanceAs (Decidable (_ ∧ _ ∧ _ ∧ (∀ k ∈ input.photoKey, k.length ≤ 512) ∧ _ ∧ _))

/-- The stored reading of a `create`. -/
structure Makes (ctx : Ctx) (newId : Id) (input : CreateReadingInput) (e : Estate)
    (r : ReadingRow) : Prop where
  id : r.id = newId
  companyId : r.companyId = ctx.companyId
  meterId : r.meterId = input.meterId
  period : r.period = input.period
  valueCurrent : r.valueCurrent.units = input.valueCurrent.units
  valuePrevious : r.valuePrevious.units =
    previousUnits ctx.companyId e input.meterId input.period
  consumption : r.consumption.units = r.valueCurrent.units - r.valuePrevious.units

section create
variable {ctx : Ctx} {e : Estate}

theorem assertMeterVisible_guards (S : Server) (ctx : Ctx) (e : Estate) (meterId : Id) :
    (assertMeterVisible ctx meterId).Guards (engine S) e []
      (∃ m ∈ e.meters.find? meterId, m.companyId = ctx.companyId) := by
  refine guards_read (q := .meterFindUnique meterId) (meter? ctx.companyId e meterId) rfl
    (fun seen => ?_) fun hidden => ?_
  · obtain ⟨m, found, own⟩ := seen
    rw [meter?, found, Option.filter_some_pos (by simpa using own)]
  · rw [meter?, filter_none_iff.mpr hidden]
    exact ⟨_, rfl⟩

/-- `resolveValuePrevious` finds a value of two decimals. -/
theorem resolveValuePrevious_serves (S : Server) (ctx : Ctx) (e : Estate) (meterId : Id)
    (period : Period) :
    ∃ v, ∃ p : Numeric 12 2, v.value = p.toDecimal ∧
      p.units = previousUnits ctx.companyId e meterId period ∧
      ∀ {α : Type} {f : MeterValue → Prog leasing α} {r : Except Failure α} {e' : Estate},
        (f v).Serves (engine S) e [] r e' →
        (resolveValuePrevious ctx meterId period >>= f).Serves (engine S) e [] r e' := by
  unfold resolveValuePrevious
  cases found : priorReading ctx.companyId e meterId period with
  | none =>
    refine ⟨⟨"0.00", ⟨0, 2⟩⟩, ⟨0, by decide⟩, rfl, by simp [previousUnits, found], ?_⟩
    intro α f r e' rest
    rw [Prog.bind_assoc]
    refine serves_read (q := .readingFindPrior meterId period) (a := none) ?_ rest
    rw [run, found]
  | some prior =>
    refine ⟨⟨prior.valueCurrent.toString, prior.valueCurrent.toDecimal⟩, prior.valueCurrent, rfl,
      by simp [previousUnits, found], ?_⟩
    intro α f r e' rest
    rw [Prog.bind_assoc]
    refine serves_read (q := .readingFindPrior meterId period) (a := some prior) ?_ rest
    rw [run, found]

/-- The statement of `create` goes through when its row fits under a new key and
a free period. -/
theorem createReading_run (S : Server) (d : ReadingData) {current previous : Numeric 12 2} {n : Int}
    (storesCurrent : Numeric.store 12 2 d.valueCurrent = some current)
    (storesPrevious : Numeric.store 12 2 d.valuePrevious = some previous)
    (counted : d.consumption = satang n) :
    (n.natAbs < 10 ^ 12 ∧ (∀ k ∈ d.photoKey, k.length ≤ 512) ∧ e.readings.find? d.id = none ∧
        (∀ r ∈ e.readings.rows, ¬(r.meterId = d.meterId ∧ r.period = d.period)) →
      ∃ r : ReadingRow, (r.id = d.id ∧ r.companyId = d.companyId ∧ r.meterId = d.meterId ∧
        r.period = d.period ∧ r.valueCurrent = current ∧ r.valuePrevious = previous ∧
        r.consumption.units = n) ∧ createReading S e d = .ok ([.reading r], r)) ∧
    (¬(n.natAbs < 10 ^ 12 ∧ (∀ k ∈ d.photoKey, k.length ≤ 512) ∧ e.readings.find? d.id = none ∧
        ∀ r ∈ e.readings.rows, ¬(r.meterId = d.meterId ∧ r.period = d.period)) →
      ∃ err, createReading S e d = .error err) := by
  have exact2 : (satang n).toFixed 2 = n := Decimal.toStorage_satang n
  simp only [createReading, storesCurrent, storesPrevious, counted]
  by_cases fits : n.natAbs < 10 ^ 12
  · simp only [Numeric.store_of_fits exact2 fits]
    split
    · rename_i long
      obtain ⟨k, stored, long⟩ := long
      exact ⟨fun h => absurd (h.2.1 k stored) (by omega), fun _ => ⟨_, rfl⟩⟩
    split
    · rename_i taken
      exact ⟨fun h => by simp [h.2.2.1] at taken, fun _ => ⟨_, rfl⟩⟩
    split
    · rename_i taken
      obtain ⟨r, stored, same⟩ := taken
      exact ⟨fun h => absurd same (h.2.2.2 r stored), fun _ => ⟨_, rfl⟩⟩
    · rename_i short fresh free
      refine ⟨fun _ => ⟨_, ⟨rfl, rfl, rfl, rfl, rfl, rfl, rfl⟩, rfl⟩, fun unfit => absurd ?_ unfit⟩
      refine ⟨fits, fun k stored => ?_, by simpa using fresh, fun r stored same => ?_⟩
      · exact Nat.le_of_not_lt fun long => short ⟨k, stored, long⟩
      · exact free ⟨r, stored, same⟩
  · simp only [Numeric.store_of_not_fits exact2 fits]
    exact ⟨fun h => absurd h.1 fits, fun _ => ⟨_, rfl⟩⟩

/-- **`create`** stores its reading, or throws and changes nothing. -/
theorem create_serves (S : Server) (ctx : Ctx) (e : Estate) (newId : Id) (now : Instant)
    {input : CreateReadingInput} (accepted : input.valueCurrent.Accepted) :
    (Creatable ctx newId input e → ∃ r, Makes ctx newId input e r ∧
      (create ctx newId now input).Serves (engine S) e [] (.ok r)
        { e with readings := e.readings.put r }) ∧
    (¬ Creatable ctx newId input e →
      ∃ err, (create ctx newId now input).Serves (engine S) e [] (.error err) e) := by
  have meter := assertMeterVisible_guards S ctx e input.meterId
  obtain ⟨v, p, value, before, resolve⟩ :=
    resolveValuePrevious_serves S ctx e input.meterId input.period
  let n := input.valueCurrent.units - p.units
  have counted : moneySub input.valueCurrent.value v.value = satang n := by
    rw [value]
    exact moneySub_accepted accepted p
  have ran := createReading_run (e := e) S (n := n)
    ⟨newId, ctx.companyId, input.meterId, input.period, input.valueCurrent.value, v.value,
      satang (toStorage (moneySub input.valueCurrent.value v.value)), input.photoKey,
      input.readAt.getD now, none⟩
    (Numeric.store_of_fits rfl accepted.fits)
    (by rw [value]; exact Numeric.store_of_fits (mul_one _) p.fits)
    (by rw [counted, Decimal.toStorage_satang])
  have below : input.valueCurrent.NegativeFrom v.value ↔
      BelowPrevious input.valueCurrent
        (previousUnits ctx.companyId e input.meterId input.period) := by
    rw [value, negativeFrom_iff accepted, before]
  unfold create
  constructor
  · rintro ⟨seen, above, fits, rest⟩
    have atLeast : p.units ≤ input.valueCurrent.units :=
      not_lt.mp fun less => above (.inl (before ▸ less))
    rw [← before] at fits
    obtain ⟨r, ⟨id, companyId, meterId, period, current, previous, units⟩, stores⟩ :=
      ran.1 ⟨by omega, rest⟩
    refine ⟨r, ⟨id, companyId, meterId, period, congrArg Numeric.units current,
      (congrArg Numeric.units previous).trans before, ?_⟩, meter.pass seen (resolve ?_)⟩
    · rw [units, current, previous]
      rfl
    simp only [mt below.mp above, if_false]
    exact .attempt (serves_write ctx (q := .readingCreate _) stores)
  · intro refused
    by_cases seen : ∃ m ∈ e.meters.find? input.meterId, m.companyId = ctx.companyId
    · refine Exists.imp (fun err thrown => meter.pass seen (resolve thrown)) ?_
      by_cases negative : input.valueCurrent.NegativeFrom v.value
      · simp only [negative, if_true]
        exact ⟨_, .fail _⟩
      · obtain ⟨err, fails⟩ := ran.2 fun fits =>
          refused ⟨seen, mt below.mpr negative, by omega, fits.2⟩
        simp only [negative, if_false]
        have thrown := serves_refused ctx (q := .readingCreate _) fails
        refine thrown.attempt_error fun err => ?_
        split
        · exact ⟨_, rfl⟩
        · exact ⟨_, rfl⟩
    · obtain ⟨err, thrown⟩ := meter.stop seen
      exact ⟨err, thrown⟩

end create
end ReadingService

/-! ## The readings of a meter -/

namespace Estate
variable (e : Estate)

def readingsOf (meterId : Id) : List ReadingRow :=
  e.readings.rows.filter fun r => r.meterId = meterId

/-- The records of a meter, by their periods. -/
def Chained (meterId : Id) : Prop :=
  Odometer.Chained (fun r : ReadingRow => (r.period.index : Int)) (fun r => r.valueCurrent.units)
    (fun r => r.valuePrevious.units) (e.readingsOf meterId)

/-- What the meter shows by its last reading. -/
def shown (meterId : Id) : Int :=
  Odometer.shown (fun r : ReadingRow => (r.period.index : Int)) (fun r => r.valueCurrent.units)
    (e.readingsOf meterId)

/-- Each reading follows on from the one before it, and the consumptions are all
that the meter shows. -/
def Metered (meterId : Id) : Prop :=
  e.Chained meterId ∧
    ((e.readingsOf meterId).map fun r => r.consumption.units).sum = e.shown meterId

/-- What readings are made with: the company of their meter, one for a period,
and the difference of their values. -/
structure Counted : Prop where
  own : ∀ r ∈ e.readings.rows, ∃ m ∈ e.meters.rows, m.id = r.meterId ∧ m.companyId = r.companyId
  readings : e.readings.UniqueOn fun r => (r.meterId, r.period)
  difference : ∀ r ∈ e.readings.rows,
    r.consumption.units = r.valueCurrent.units - r.valuePrevious.units

variable {e}

theorem mem_readingsOf {meterId : Id} {r : ReadingRow} :
    r ∈ e.readingsOf meterId ↔ r ∈ e.readings.rows ∧ r.meterId = meterId := by
  simp [readingsOf]

namespace Counted
variable (counted : e.Counted)
include counted

theorem periods (meterId : Id) :
    ((e.readingsOf meterId).map fun r => (r.period.index : Int)).Nodup := by
  refine List.Nodup.map_on (fun r hr r' hr' same => ?_) (e.readings.distinct.of_map.filter _)
  obtain ⟨stored, rfl⟩ := mem_readingsOf.mp hr
  obtain ⟨stored', meter⟩ := mem_readingsOf.mp hr'
  have period := Period.index_inj (Int.natCast_inj.mp same)
  exact counted.readings r stored r' stored' (Prod.ext meter.symm period)

/-- In a chain, the consumptions sum to what the meter shows. -/
theorem metered_iff (meterId : Id) : e.Metered meterId ↔ e.Chained meterId := by
  refine ⟨And.left, fun chained => ⟨chained, ?_⟩⟩
  rw [shown, ← Odometer.sum_chained (counted.periods meterId) chained]
  congr 1
  refine List.map_congr_left fun r hr => ?_
  exact counted.difference r (mem_readingsOf.mp hr).1

/-- The company of a meter sees all its readings. -/
theorem previousUnits_eq {m : MeterRow} (hm : m ∈ e.meters.rows) (period : Period) :
    previousUnits m.companyId e m.id period =
      Odometer.shownBefore (fun r : ReadingRow => (r.period.index : Int))
        (fun r => r.valueCurrent.units) (e.readingsOf m.id) period.index := by
  have seen : e.readings.rows.filter (fun r => r.companyId = m.companyId ∧ r.meterId = m.id ∧
        r.period.index < period.index) =
      (e.readingsOf m.id).filter fun r => (r.period.index : Int) < period.index := by
    rw [readingsOf, List.filter_filter]
    refine List.filter_congr fun r hr => ?_
    obtain ⟨m', hm', id, company⟩ := counted.own r hr
    have same : r.meterId = m.id → r.companyId = m.companyId := fun meter => by
      rw [← company, e.meters.key_inj hm' hm (id.trans meter)]
    rw [← Bool.decide_and, decide_eq_decide]
    constructor
    · rintro ⟨-, meter, before⟩
      exact ⟨by omega, meter⟩
    · rintro ⟨before, meter⟩
      exact ⟨same meter, meter, by omega⟩
  rw [previousUnits, priorReading, seen]
  rfl

end Counted
end Estate

/-! ## A new reading -/

section put
variable {e : Estate} {r : ReadingRow}

theorem Estate.readingsOf_put (fresh : e.readings.find? r.id = none) (meterId : Id) :
    ({ e with readings := e.readings.put r } : Estate).readingsOf meterId =
      if r.meterId = meterId then e.readingsOf meterId ++ [r] else e.readingsOf meterId := by
  rw [Estate.readingsOf, Table.rows_put_new e.readings fresh, List.filter_append]
  split <;> simp_all [Estate.readingsOf]

variable {ctx : Ctx} {newId : Id} {input : CreateReadingInput}

theorem Estate.Counted.put (counted : e.Counted)
    (creatable : ReadingService.Creatable ctx newId input e)
    (makes : ReadingService.Makes ctx newId input e r) :
    ({ e with readings := e.readings.put r } : Estate).Counted := by
  obtain ⟨⟨m, found, company⟩, -, -, -, fresh, free⟩ := creatable
  refine ⟨fun x hx => ?_, counted.readings.put fun x hx same => ?_, fun x hx => ?_⟩
  · rcases Table.mem_put.mp hx with rfl | ⟨old, -⟩
    · refine ⟨m, Table.find?_mem found, ?_, company.trans makes.companyId.symm⟩
      exact (Table.find?_key found).trans makes.meterId.symm
    · exact counted.own x old
  · obtain ⟨meter, period⟩ := Prod.mk.inj same
    exact absurd ⟨meter.trans makes.meterId, period.trans makes.period⟩ (free x hx)
  · rcases Table.mem_put.mp hx with rfl | ⟨old, -⟩
    · exact makes.consumption
    · exact counted.difference x old

/-- A reading before a later one, which shows something else than the one before. -/
def Displaces (ctx : Ctx) (input : CreateReadingInput) (e : Estate) : Prop :=
  (∃ r ∈ e.readings.rows, r.meterId = input.meterId ∧ input.period.index < r.period.index) ∧
    input.valueCurrent.units ≠ previousUnits ctx.companyId e input.meterId input.period

instance (ctx : Ctx) (input : CreateReadingInput) (e : Estate) :
    Decidable (Displaces ctx input e) :=
  inferInstanceAs (Decidable ((∃ r ∈ e.readings.rows, _ ∧ _) ∧ _ ≠ _))

/-- **A new reading** keeps the chains exactly when it displaces none. -/
theorem Estate.Counted.chained_put_iff (counted : e.Counted) (chained : ∀ id, e.Chained id)
    (creatable : ReadingService.Creatable ctx newId input e)
    (makes : ReadingService.Makes ctx newId input e r) :
    (∀ id, ({ e with readings := e.readings.put r } : Estate).Chained id) ↔
      ¬ Displaces ctx input e := by
  obtain ⟨⟨m, found, company⟩, -, -, -, fresh, free⟩ := creatable
  have stored : m ∈ e.meters.rows := Table.find?_mem found
  have meter : m.id = input.meterId := Table.find?_key found
  have before : previousUnits ctx.companyId e input.meterId input.period =
      Odometer.shownBefore (fun r : ReadingRow => (r.period.index : Int))
        (fun r => r.valueCurrent.units) (e.readingsOf input.meterId) r.period.index := by
    rw [← company, ← meter, counted.previousUnits_eq stored, makes.period]
  have others : ∀ id, id ≠ input.meterId →
      ({ e with readings := e.readings.put r } : Estate).Chained id := by
    intro id other
    rw [Estate.Chained, Estate.readingsOf_put (makes.id ▸ fresh), if_neg]
    · exact chained id
    · exact fun same => other (same.symm.trans makes.meterId)
  have here : ({ e with readings := e.readings.put r } : Estate).Chained input.meterId ↔
      ¬ Displaces ctx input e := by
    rw [Estate.Chained, Estate.readingsOf_put (makes.id ▸ fresh), if_pos makes.meterId,
      Odometer.chained_insert_iff (chained input.meterId), ← before, makes.valueCurrent]
    · simp only [Displaces, not_and, not_not, Estate.mem_readingsOf, makes.period, Int.ofNat_lt,
        and_assoc]
    · intro x hx same
      obtain ⟨old, meter⟩ := Estate.mem_readingsOf.mp hx
      exact free x old ⟨meter, (Period.index_inj (Int.natCast_inj.mp same)).trans makes.period⟩
    · rw [makes.valuePrevious, before]
  constructor
  · exact fun all => here.mp (all _)
  · intro fits id
    by_cases same : id = input.meterId
    · rw [same]
      exact here.mpr fits
    · exact others id same

end put

/-! ## Any order of entering them -/

/-- A `create` of a value that `meterValueSchema` accepts. -/
structure ReadingRequest where
  ctx : Ctx
  newId : Id
  now : Instant
  input : CreateReadingInput
  accepted : input.valueCurrent.Accepted

namespace ReadingRequest

def commit (S : Server) (e : Estate) (r : ReadingRequest) : Estate :=
  (LeasingCall.createReading r.newId r.now r.input).commit S r.ctx e

/-- The call is refused, or displaces no reading. -/
def InOrder (e : Estate) (r : ReadingRequest) : Prop :=
  ReadingService.Creatable r.ctx r.newId r.input e → ¬ Displaces r.ctx r.input e

theorem commit_counted (S : Server) {e : Estate} (counted : e.Counted) (r : ReadingRequest) :
    (r.commit S e).Counted := by
  obtain ⟨stores, refuses⟩ :=
    ReadingService.create_serves S r.ctx e r.newId r.now r.accepted
  by_cases creatable : ReadingService.Creatable r.ctx r.newId r.input e
  · obtain ⟨row, makes, served⟩ := stores creatable
    rw [commit, LeasingCall.commit, LeasingCall.commit.serve, (served.serve _).2]
    exact counted.put creatable makes
  · obtain ⟨err, served⟩ := refuses creatable
    rw [commit, LeasingCall.commit, LeasingCall.commit.serve, (served.serve _).2]
    exact counted

theorem commit_chained_iff (S : Server) {e : Estate} (counted : e.Counted)
    (chained : ∀ id, e.Chained id) (r : ReadingRequest) :
    (∀ id, (r.commit S e).Chained id) ↔ r.InOrder e := by
  obtain ⟨stores, refuses⟩ :=
    ReadingService.create_serves S r.ctx e r.newId r.now r.accepted
  by_cases creatable : ReadingService.Creatable r.ctx r.newId r.input e
  · obtain ⟨row, makes, served⟩ := stores creatable
    rw [commit, LeasingCall.commit, LeasingCall.commit.serve, (served.serve _).2,
      counted.chained_put_iff chained creatable makes]
    exact ⟨fun fits _ => fits, fun inOrder => inOrder creatable⟩
  · obtain ⟨err, served⟩ := refuses creatable
    rw [commit, LeasingCall.commit, LeasingCall.commit.serve, (served.serve _).2]
    exact iff_of_true chained fun h => absurd h creatable

end ReadingRequest

/-- **The readings of every meter form a chain**, and their consumptions sum to
what it shows, exactly when no reading entered before a later one displaces it. -/
theorem readings_metered_iff (S : Server) (e : Estate) (start : e.readings.rows = [])
    (rs : List ReadingRequest) :
    (∀ e' ∈ states (ReadingRequest.commit S) e rs, ∀ id, e'.Metered id) ↔
      Throughout (ReadingRequest.commit S) ReadingRequest.InOrder e rs := by
  have none : ∀ r, r ∉ e.readings.rows := by simp [start]
  have counted : e.Counted :=
    ⟨fun r hr => absurd hr (none r), fun r hr => absurd hr (none r), fun r hr => absurd hr (none r)⟩
  have chained : ∀ id, e.Chained id :=
    fun id r hr => absurd (Estate.mem_readingsOf.mp hr).1 (none r)
  have exact' : ∀ e' (r : ReadingRequest), e'.Counted → (∀ id, e'.Metered id) → True →
      ((∀ id, (r.commit S e').Metered id) ↔ r.InOrder e') := by
    intro e' r counted metered _
    rw [← r.commit_chained_iff S counted fun id => (metered id).1]
    exact forall_congr' fun id => (r.commit_counted S counted).metered_iff id
  exact states_iff (P := fun _ _ => True) (fun _ r counted _ => r.commit_counted S counted)
    exact' counted (fun id => (counted.metered_iff id).mpr (chained id)) (throughout_true _ e rs)

namespace Demo

/-- A room with an electricity meter that nobody has read. -/
def wired : Estate where
  meters := Table.put default ⟨⟨401, 1, 201, .electric, "kWh", ⟨80000, by decide⟩⟩, none⟩
  books := vacant.books

def read (newId : Id) (period : Period) (v : MeterValue) (accepted : v.Accepted := by decide) :
    ReadingRequest :=
  ⟨Dormitory.Demo.ctx, newId, 0, ⟨401, period, v, none, none⟩, accepted⟩

def march : Period := ⟨2026, 3, by decide⟩

def marchReading : ReadingRequest := read 601 march ⟨"100.00", ⟨10000, 2⟩⟩

def aprilReading : ReadingRequest := read 602 Dormitory.Demo.april ⟨"250.00", ⟨25000, 2⟩⟩

end Demo

instance (e : Estate) (r : ReadingRequest) : Decidable (r.InOrder e) :=
  inferInstanceAs (Decidable (_ → ¬ _))

open Dormitory.Demo in
/-- March before April. -/
theorem readings_metered_months :
    (([Demo.marchReading, Demo.aprilReading].foldl (ReadingRequest.commit server)
      Demo.wired).readingsOf 401).length = 2 ∧
    ∀ e ∈ states (ReadingRequest.commit server) Demo.wired [Demo.marchReading, Demo.aprilReading],
      ∀ id, e.Metered id :=
  ⟨by decide +kernel, (readings_metered_iff server Demo.wired rfl _).mpr
    ⟨by decide +kernel, by decide +kernel, trivial⟩⟩

open Dormitory.Demo in
/-- March entered after April: the 100 units that March shows are billed with
both months. -/
theorem march_billed_twice :
    ∃ e ∈ states (ReadingRequest.commit server) Demo.wired [Demo.aprilReading, Demo.marchReading],
      ¬ ∀ id, e.Metered id := by
  refine ⟨_, last_mem_states _ _ _, fun metered => ?_⟩
  have twice : (([Demo.aprilReading, Demo.marchReading].foldl (ReadingRequest.commit server)
        Demo.wired).readingsOf 401 |>.map fun r => r.consumption.units).sum = 35000 ∧
      ([Demo.aprilReading, Demo.marchReading].foldl (ReadingRequest.commit server)
        Demo.wired).shown 401 = 25000 := by decide +kernel
  have counted := (metered 401).2
  rw [twice.1, twice.2] at counted
  exact absurd counted (by decide)

end Leasing
end Dormitory
