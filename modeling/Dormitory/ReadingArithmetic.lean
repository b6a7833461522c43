import Dormitory.Periods
import Dormitory.ReadingChains

/-!
# The arithmetic of readings

Whatever is created and corrected, in whatever order of periods, a stored
consumption is the difference of the two values beside it, and nothing is
negative.
-/

namespace Dormitory

/-- The consumption is the difference of the values, and nothing runs backwards. -/
structure ReadingRow.Arithmetic (r : ReadingRow) : Prop where
  difference : r.consumption.units = r.valueCurrent.units - r.valuePrevious.units
  forwards : 0 ≤ r.consumption.units
  start : 0 ≤ r.valuePrevious.units

theorem Period.toString_lt_iff_index (p q : Period) :
    p.toString < q.toString ↔ p.index < q.index := by
  have valid := p.valid
  have valid' := q.valid
  rw [toString_lt_iff, position, position, index, index]
  omega

namespace Leasing
open Txn

def Estate.Arithmetic (e : Estate) : Prop := ∀ r ∈ e.readings.rows, r.Arithmetic

theorem Estate.Arithmetic.put {e : Estate} (sound : e.Arithmetic) {r : ReadingRow}
    (row : r.Arithmetic) : ({ e with readings := e.readings.put r } : Estate).Arithmetic := by
  intro x hx
  rcases Table.mem_put.mp hx with rfl | ⟨old, -⟩
  · exact row
  · exact sound x old

/-- `priorReading` is the latest row below the period, in the order of the strings. -/
structure IsPrior (c : Id) (e : Estate) (meterId : Id) (period : Period) (r : ReadingRow) :
    Prop where
  stored : r ∈ e.readings.rows
  own : r.companyId = c ∧ r.meterId = meterId
  before : r.period.toString < period.toString
  latest : ∀ x ∈ e.readings.rows, x.companyId = c ∧ x.meterId = meterId →
    x.period.toString < period.toString → ¬ r.period.toString < x.period.toString

theorem priorReading_isPrior {c meterId : Id} {e : Estate} {period : Period} {r : ReadingRow}
    (found : priorReading c e meterId period = some r) : IsPrior c e meterId period r := by
  rw [priorReading] at found
  rcases findLatest_spec (f := fun r : ReadingRow => (r.period.index : Int)) _ with
    ⟨none, -⟩ | ⟨b, mem, latest, above⟩
  · rw [none] at found
    cases found
  · cases latest.symm.trans found
    simp only [List.mem_filter, decide_eq_true_eq] at mem above
    obtain ⟨stored, company, meter, before⟩ := mem
    refine ⟨stored, ⟨company, meter⟩, (Period.toString_lt_iff_index _ _).mpr before, ?_⟩
    intro x hx own earlier later
    have least := above x ⟨hx, own.1, own.2, (Period.toString_lt_iff_index _ _).mp earlier⟩
    have greater := (Period.toString_lt_iff_index _ _).mp later
    omega

/-- A value that was shown is not negative. -/
theorem Estate.Arithmetic.previous {e : Estate} (sound : e.Arithmetic) (c meterId : Id)
    (period : Period) : 0 ≤ previousUnits c e meterId period := by
  rw [previousUnits]
  cases found : priorReading c e meterId period with
  | none => exact Int.le_refl 0
  | some r =>
    obtain ⟨difference, forwards, start⟩ := sound r (priorReading_isPrior found).stored
    simp only [Option.map_some, Option.getD_some]
    omega

namespace ReadingService
variable {ctx : Ctx} {e : Estate}

theorem Makes.arithmetic {newId : Id} {input : CreateReadingInput} {r : ReadingRow}
    (makes : Makes ctx newId input e r) (creatable : Creatable ctx newId input e)
    (sound : e.Arithmetic) : r.Arithmetic := by
  have previous := sound.previous ctx.companyId input.meterId input.period
  have above := not_or.mp creatable.2.1
  have difference := makes.consumption
  have current := makes.valueCurrent
  have before := makes.valuePrevious
  exact ⟨difference, by omega, by omega⟩

/-- What a correction that goes through makes of a reading. -/
structure Corrects (input : UpdateReadingInput) (r r' : ReadingRow) : Prop where
  id : r'.id = r.id
  valuePrevious : r'.valuePrevious = r.valuePrevious
  above : ∀ v ∈ input.valueCurrent, ¬ BelowPrevious v r.valuePrevious.units
  values : match input.valueCurrent with
    | none => r'.valueCurrent = r.valueCurrent ∧ r'.consumption = r.consumption
    | some v => r'.valueCurrent.units = v.units ∧
        r'.consumption.units = v.units - r.valuePrevious.units

theorem Corrects.arithmetic {input : UpdateReadingInput} {r r' : ReadingRow}
    (corrects : Corrects input r r') (row : r.Arithmetic) : r'.Arithmetic := by
  obtain ⟨-, previous, above, values⟩ := corrects
  cases given : input.valueCurrent with
  | none =>
    rw [given] at values
    obtain ⟨current, consumption⟩ := values
    obtain ⟨difference, forwards, start⟩ := row
    refine ⟨?_, ?_, ?_⟩
    · rw [consumption, current, previous, difference]
    · rwa [consumption]
    · rwa [previous]
  | some v =>
    rw [given] at values
    obtain ⟨current, consumption⟩ := values
    have atLeast := not_or.mp (above v given)
    have start := row.start
    refine ⟨?_, ?_, ?_⟩
    · rw [consumption, current, previous]
    · omega
    · rwa [previous]

/-- The statement of `update` stores its value and its consumption, or throws. -/
theorem updateReading_serves (S : Server) {id : Id} {r : ReadingRow}
    (found : reading? ctx.companyId e id = some r) (d : ReadingPatch) :
    (∃ err, (prisma ctx (.readingUpdate id d)).Serves (engine S) e [] (.error err) e) ∨
    ∃ r', (prisma ctx (.readingUpdate id d)).Serves (engine S) e [] (.ok r')
        { e with readings := e.readings.put r' } ∧
      r'.id = r.id ∧ r'.valuePrevious = r.valuePrevious ∧
      storeOver r.valueCurrent d.valueCurrent = some r'.valueCurrent ∧
      storeOver r.consumption d.consumption = some r'.consumption := by
  cases outcome : updateReading ctx.companyId e id d with
  | error err => exact .inl ⟨err, serves_refused ctx (q := .readingUpdate id d) outcome⟩
  | ok stored =>
    obtain ⟨ws, r'⟩ := stored
    have served := serves_write (S := S) ctx (q := .readingUpdate id d) outcome
    simp only [updateReading, found] at outcome
    split at outcome
    · rename_i current consumption storesCurrent storesConsumption
      split at outcome
      · cases outcome
      · cases outcome
        exact .inr ⟨_, served, rfl, rfl, storesCurrent, storesConsumption⟩
    · cases outcome

theorem getById_missing (S : Server) {α : Type} (f : ReadingRow → Prog leasing α) {id : Id}
    (missing : reading? ctx.companyId e id = none) :
    ∃ err, (getById ctx id >>= f).Serves (engine S) e [] (.error err) e := by
  unfold getById
  rw [Prog.bind_assoc]
  refine ⟨_, serves_read (q := .readingFindUnique id) (a := none) ?_ (.fail _)⟩
  rw [run, missing]

theorem getById_found {S : Server} {α : Type} {f : ReadingRow → Prog leasing α} {id : Id}
    {r : ReadingRow} (found : reading? ctx.companyId e id = some r) {a : Except Failure α}
    {e' : Estate} (rest : (f r).Serves (engine S) e [] a e') :
    (getById ctx id >>= f).Serves (engine S) e [] a e' := by
  unfold getById
  rw [Prog.bind_assoc]
  refine serves_read (q := .readingFindUnique id) (a := some r) ?_ rest
  rw [run, found]

/-- **`update`** corrects the reading that it finds, or throws and changes nothing. -/
theorem update_serves (S : Server) (ctx : Ctx) (e : Estate) (id : Id) {input : UpdateReadingInput}
    (accepted : ∀ v ∈ input.valueCurrent, v.Accepted) :
    (∃ err, (update ctx id input).Serves (engine S) e [] (.error err) e) ∨
    ∃ r r', reading? ctx.companyId e id = some r ∧ Corrects input r r' ∧
      (update ctx id input).Serves (engine S) e [] (.ok r')
        { e with readings := e.readings.put r' } := by
  unfold update
  cases found : reading? ctx.companyId e id with
  | none => exact .inl (getById_missing S _ found)
  | some r =>
    cases given : input.valueCurrent with
    | none =>
      rcases updateReading_serves S found ⟨none, none, input.photoKey, input.readAt⟩ with
        ⟨err, fails⟩ | ⟨r', stores, same, previous, current, consumption⟩
      · exact .inl ⟨err, getById_found found fails⟩
      · refine .inr ⟨r, r', rfl, ⟨same, previous, by simp [given], ?_⟩, getById_found found stores⟩
        rw [given]
        exact ⟨(Option.some.inj current).symm, (Option.some.inj consumption).symm⟩
    | some v =>
      have width := accepted v given
      have below := negativeFrom_iff width r.valuePrevious
      by_cases negative : v.NegativeFrom r.valuePrevious.toDecimal
      · refine .inl (Exists.imp (fun err thrown => getById_found found thrown) ?_)
        simp only [negative, if_true]
        exact ⟨_, .fail _⟩
      · rcases updateReading_serves S found ⟨some v.value,
            some (satang (toStorage (moneySub v.value r.valuePrevious.toDecimal))), input.photoKey,
            input.readAt⟩ with
          ⟨err, fails⟩ | ⟨r', stores, same, previous, current, consumption⟩
        · refine .inl ⟨err, getById_found found ?_⟩
          simpa only [negative, if_false] using fails
        · have kept := Numeric.store_eq_some.mp current
          have counted := Numeric.store_eq_some.mp consumption
          rw [moneySub_accepted width, Decimal.toStorage_satang] at counted
          refine .inr ⟨r, r', rfl, ⟨same, previous, ?_, ?_⟩, getById_found found ?_⟩
          · intro v' given'
            cases given.symm.trans given'
            exact mt below.mpr negative
          · rw [given]
            exact ⟨kept, counted.trans (Decimal.toStorage_satang _)⟩
          · simpa only [negative, if_false] using stores

end ReadingService

/-! ## Any order of calls -/

/-- A `create` or an `update` with a value that `meterValueSchema` accepts. -/
inductive ReadingCall where
  | create (r : ReadingRequest)
  | update (ctx : Ctx) (id : Id) (input : UpdateReadingInput)
      (accepted : ∀ v ∈ input.valueCurrent, v.Accepted)

namespace ReadingCall

def answer (S : Server) (e : Estate) : ReadingCall → Except Failure ReadingRow
  | create r => serve (ReadingService.create r.ctx r.newId r.now r.input)
  | update ctx id input _ => serve (ReadingService.update ctx id input)
where
  serve (p : Prog leasing ReadingRow) : Except Failure ReadingRow :=
    (p.serve (engine S) (fun _ => true) e).answer

def commit (S : Server) (e : Estate) : ReadingCall → Estate
  | create r => r.commit S e
  | update ctx id input _ => (LeasingCall.updateReading id input).commit S ctx e

/-- The value is below the one before it: on `create` the one that the meter
showed before the period, on `update` the one stored with the reading. -/
def Below (e : Estate) : ReadingCall → Prop
  | create r => r.input.valueCurrent.units <
      previousUnits r.ctx.companyId e r.input.meterId r.input.period
  | update ctx id input _ => ∃ v ∈ input.valueCurrent, ∃ r ∈ reading? ctx.companyId e id,
      v.units < r.valuePrevious.units

/-- A call throws and changes nothing, or stores a reading whose value is not below
the one before it. -/
theorem commit_cases (S : Server) (e : Estate) (call : ReadingCall) :
    ((∃ err, call.answer S e = .error err) ∧ call.commit S e = e) ∨
    ¬ call.Below e ∧ ∃ r : ReadingRow, (e.Arithmetic → r.Arithmetic) ∧
      call.commit S e = { e with readings := e.readings.put r } := by
  cases call with
  | create r =>
    obtain ⟨stores, refuses⟩ := ReadingService.create_serves S r.ctx e r.newId r.now r.accepted
    by_cases creatable : ReadingService.Creatable r.ctx r.newId r.input e
    · obtain ⟨row, makes, served⟩ := stores creatable
      refine .inr ⟨fun below => creatable.2.1 (.inl below), row, makes.arithmetic creatable, ?_⟩
      exact (served.serve _).2
    · obtain ⟨err, served⟩ := refuses creatable
      exact .inl ⟨⟨err, (served.serve _).1⟩, (served.serve _).2⟩
  | update ctx id input accepted =>
    rcases ReadingService.update_serves S ctx e id accepted with
      ⟨err, served⟩ | ⟨r, r', found, corrects, served⟩
    · exact .inl ⟨⟨err, (served.serve _).1⟩, (served.serve _).2⟩
    · refine .inr ⟨?_, r', fun sound => ?_, (served.serve _).2⟩
      · rintro ⟨v, given, x, stored, below⟩
        cases found.symm.trans stored
        exact corrects.above v given (.inl below)
      · exact corrects.arithmetic (sound r (Table.find?_mem (Option.filter_eq_some_iff.mp found).1))

theorem commit_arithmetic (S : Server) {e : Estate} (sound : e.Arithmetic) (call : ReadingCall) :
    (call.commit S e).Arithmetic := by
  rcases call.commit_cases S e with ⟨-, same⟩ | ⟨-, r, row, stores⟩
  · rwa [same]
  · rw [stores]
    exact sound.put (row sound)

theorem below_refused (S : Server) {e : Estate} {call : ReadingCall} (below : call.Below e) :
    (∃ err, call.answer S e = .error err) ∧ call.commit S e = e := by
  rcases call.commit_cases S e with refused | ⟨above, -⟩
  · exact refused
  · exact absurd below above

end ReadingCall

/-- **Whatever is read and corrected**, every stored consumption is the difference
of its values and no meter runs backwards; a call that would have one do so throws
and changes nothing. -/
theorem reading_arithmetic (S : Server) (e : Estate) (start : e.Arithmetic)
    (calls : List ReadingCall) :
    ∀ e' ∈ states (ReadingCall.commit S) e calls, e'.Arithmetic ∧
      ∀ call : ReadingCall, call.Below e' →
        (∃ err, call.answer S e' = .error err) ∧ call.commit S e' = e' := by
  intro e' reached
  refine ⟨?_, fun call below => ReadingCall.below_refused S below⟩
  exact states_keep (I := Estate.Arithmetic)
    (fun e call sound => ReadingCall.commit_arithmetic S sound call) start e' reached

namespace Demo

def correct (id : Id) (v : MeterValue) (accepted : ∀ w ∈ some v, w.Accepted := by decide) :
    ReadingCall :=
  .update Dormitory.Demo.ctx id ⟨some v, none, none⟩ accepted

/-- March shows 100 and April 250; then March is corrected to 80. -/
def corrected : Estate :=
  [.create marchReading, .create aprilReading, correct 601 ⟨"80", ⟨80, 0⟩⟩].foldl
    (ReadingCall.commit Dormitory.Demo.server) wired

end Demo

open Dormitory.Demo in
/-- April keeps the 100 before it, and is not corrected to 90. -/
theorem reading_arithmetic_corrected :
    Demo.corrected.readings.rows.length = 2 ∧ Demo.corrected.Arithmetic ∧
      (∃ err, (Demo.correct 602 ⟨"90", ⟨90, 0⟩⟩).answer server Demo.corrected = .error err) ∧
      (Demo.correct 602 ⟨"90", ⟨90, 0⟩⟩).commit server Demo.corrected = Demo.corrected := by
  obtain ⟨sound, refused⟩ := reading_arithmetic server Demo.wired
    (fun _ stored => absurd stored List.not_mem_nil) _ Demo.corrected (last_mem_states _ _ _)
  have below : ∃ r ∈ reading? ctx.companyId Demo.corrected 602,
      MeterValue.units ⟨"90", ⟨90, 0⟩⟩ < r.valuePrevious.units := by decide +kernel
  exact ⟨by decide +kernel, sound, refused _ ⟨_, rfl, below⟩⟩

end Leasing
end Dormitory
