import Dormitory.JsonValue
import Dormitory.WebhookDedup

/-!
# Synthetic event ids

The ids of `syntheticEventId` for events with all their fields: which events have
the same one, when the mixing of `djb2` is left aside.
-/

namespace Dormitory

/-- An event that `lineWebhookEventSchema` accepts: its last branch asks for the
fields that all branches share, and passes the others through. The timestamp is
the shortest decimal of the number. -/
structure WireEvent where
  type : String
  timestamp : Nat
  webhookEventId : Option String
  /-- `deliveryContext.isRedelivery`. -/
  deliveryContext : Option Bool
  source : Option JsonValue
  message : Option JsonValue
  postback : Option JsonValue
  rest : List (String × JsonValue)
  named : type ≠ ""
  identified : ∀ id ∈ webhookEventId, id ≠ "" ∧ utf16Length id ≤ 128

namespace WireEvent
variable (e : WireEvent)

/-- The source, if it is truthy. -/
def eventSource : Option LineEventSource :=
  (e.source.filter JsonValue.truthy).map fun v =>
    { json := String.ofList v.stringify
      userId := match v.get? "userId" with
        | some (.str s) => some s
        | _ => none }

/-- The fields that the schema only passes through. -/
def passed : List (String × JsonValue) :=
  (e.deliveryContext.map fun b => ("deliveryContext", .obj [("isRedelivery", .bool b)])).toList ++
    (e.message.map fun v => ("message", v)).toList ++
    (e.postback.map fun v => ("postback", v)).toList ++ e.rest

/-- The event of the service. -/
def event : LineWebhookEvent where
  type := e.type
  timestamp := e.timestamp
  webhookEventId := e.webhookEventId
  source := e.eventSource
  rest := String.ofList (JsonValue.obj e.passed).stringify
  named := e.named
  identified := e.identified

def messageId : Option JsonValue := e.message.bind fun v => v.get? "id"

def postbackData : Option JsonValue := e.postback.bind fun v => v.get? "data"

def sourceKey : String := (e.eventSource.map LineEventSource.json).getD "no-source"

/-- `raw`, which `syntheticEventId` hashes. -/
def raw : String := numberText e.timestamp ++ ":" ++ e.type ++ ":" ++ e.sourceKey

/-- The events differ in nothing but `deliveryContext`. -/
def Redelivers (e e' : WireEvent) : Prop :=
  { e with deliveryContext := none } = { e' with deliveryContext := none }

/-- The events differ in a field by which distinct events are told. -/
def Differs (e e' : WireEvent) : Prop :=
  e.type ≠ e'.type ∨ e.timestamp ≠ e'.timestamp ∨ e.source ≠ e'.source ∨
    e.messageId ≠ e'.messageId ∨ e.postbackData ≠ e'.postbackData

/-- One type, one timestamp and one source, or two that are not truthy. -/
def SameOrigin (e e' : WireEvent) : Prop :=
  e.type = e'.type ∧ e.timestamp = e'.timestamp ∧
    e.source.filter JsonValue.truthy = e'.source.filter JsonValue.truthy

/-- Events of one origin that differ in their source, message id or postback data. -/
def Conflated (e e' : WireEvent) : Prop :=
  e.SameOrigin e' ∧
    (e.source ≠ e'.source ∨ e.messageId ≠ e'.messageId ∨ e.postbackData ≠ e'.postbackData)

variable {e} {e' : WireEvent}

theorem sourceKey_some {v : JsonValue} (h : e.source.filter JsonValue.truthy = some v) :
    e.sourceKey.toList = v.stringify := by
  simp [sourceKey, eventSource, h]

theorem sourceKey_none (h : e.source.filter JsonValue.truthy = none) :
    e.sourceKey.toList = "no-source".toList := by
  simp [sourceKey, eventSource, h]

theorem balanced_sourceKey (e : WireEvent) : Scan.Balanced e.sourceKey.toList := by
  cases truthy : e.source.filter JsonValue.truthy with
  | none =>
    rw [sourceKey_none truthy]
    exact Scan.balanced_plain (by decide)
  | some v =>
    rw [sourceKey_some truthy]
    exact v.balanced_stringify

/-- No value but `null` has a text like that of a missing source. -/
theorem stringify_ne_noSource {v : JsonValue} (truthy : v.truthy = true) :
    v.stringify ≠ "no-source".toList := by
  intro same
  obtain ⟨c, cs, head, first⟩ := v.stringify_head
  rw [head] at same
  cases List.head_eq_of_cons_eq same
  have kind := Option.some.inj first
  cases v with
  | null => cases truthy
  | bool | num | str | arr | obj => cases kind

theorem sourceKey_inj (h : e.sourceKey = e'.sourceKey) :
    e.source.filter JsonValue.truthy = e'.source.filter JsonValue.truthy := by
  have same := congrArg String.toList h
  cases source : e.source.filter JsonValue.truthy with
  | none =>
    cases source' : e'.source.filter JsonValue.truthy with
    | none => rfl
    | some v' =>
      rw [sourceKey_none source, sourceKey_some source'] at same
      exact absurd same.symm (stringify_ne_noSource (Option.filter_eq_some_iff.mp source').2)
  | some v =>
    cases source' : e'.source.filter JsonValue.truthy with
    | none =>
      rw [sourceKey_some source, sourceKey_none source'] at same
      exact absurd same (stringify_ne_noSource (Option.filter_eq_some_iff.mp source).2)
    | some v' =>
      rw [sourceKey_some source, sourceKey_some source'] at same
      have texts : v.stringify ++ [] = v'.stringify ++ [] := by rw [same]
      exact congrArg some (JsonValue.stringify_inj JsonValue.ends_nil JsonValue.ends_nil texts).1

theorem raw_toList (e : WireEvent) : e.raw.toList =
    (numberText e.timestamp).toList ++ ':' :: (e.type.toList ++ ':' :: e.sourceKey.toList) := by
  simp [raw]

/-- **The text that is hashed** is that of the origin. -/
theorem raw_eq_iff : e.raw = e'.raw ↔ e.SameOrigin e' := by
  constructor
  · intro h
    have text := congrArg String.toList h
    rw [raw_toList, raw_toList] at text
    have colon : ∀ n, ':' ∉ (numberText n).toList := fun n mem =>
      absurd (numberText_chars n ':' mem) (by decide)
    obtain ⟨time, rest⟩ := append_cons_inj (colon _) (colon _) text
    obtain ⟨type, source⟩ := (balanced_sourceKey e).append_colon_inj (balanced_sourceKey e') rest
    refine ⟨String.toList_inj.mp type, ?_, sourceKey_inj (String.toList_inj.mp source)⟩
    exact numberText_inj (String.toList_inj.mp time)
  · rintro ⟨type, time, source⟩
    simp only [raw, sourceKey, eventSource, type, time, source]

theorem Redelivers.sameOrigin (h : e.Redelivers e') : e.SameOrigin e' := by
  obtain ⟨type, time, -, -, source, -⟩ := WireEvent.mk.inj h
  exact ⟨type, time, congrArg (·.filter JsonValue.truthy) source⟩

/-- Events that differ are conflated when they are of one origin. -/
theorem conflated_iff (differs : e.Differs e') : e.Conflated e' ↔ e.SameOrigin e' := by
  refine ⟨And.left, fun origin => ⟨origin, ?_⟩⟩
  rcases differs with type | time | rest
  · exact absurd origin.1 type
  · exact absurd origin.2.1 time
  · exact rest

theorem Conflated.differs (h : e.Conflated e') : e.Differs e' := .inr (.inr h.2)

end WireEvent

namespace Line
open WireEvent Txn LineWebhookService
variable {e e' : WireEvent}

theorem syntheticEventId_event (e : WireEvent) : syntheticEventId e.event =
    "synth-" ++ String.ofList (Nat.toDigits 16 (djb2 e.raw).toNat) ++ "-" ++
      numberText e.timestamp := rfl

/-- **The ids of two events** are one exactly when their origin is. -/
theorem syntheticEventId_eq_iff (mixes : djb2 e.raw = djb2 e'.raw → e.raw = e'.raw) :
    syntheticEventId e.event = syntheticEventId e'.event ↔ e.SameOrigin e' := by
  rw [← raw_eq_iff]
  constructor
  · intro h
    have text := congrArg String.toList h
    simp only [syntheticEventId_event, String.toList_append, String.toList_ofList,
      List.append_assoc] at text
    have hyphen : ∀ n, '-' ∉ Nat.toDigits 16 n := by
      intro n mem
      obtain ⟨d, small, same⟩ := mem_toDigits (by decide) mem
      have digits : ∀ d < 16, '-' ≠ Nat.digitChar d := by decide
      exact digits d small same
    obtain ⟨hash, -⟩ := append_cons_inj (hyphen _) (hyphen _) (List.append_cancel_left text)
    exact mixes (BitVec.eq_of_toNat_eq (toDigits_inj (by decide) (by decide) hash))
  · intro same
    have time := (raw_eq_iff.mp same).2.1
    rw [syntheticEventId_event, syntheticEventId_event, same, time]

/-- **Distinct events have distinct ids**, and redeliveries the same one, exactly
when the two are not of one origin with another message or postback. -/
theorem syntheticEventId_distinguishes_iff (e e' : WireEvent)
    (mixes : djb2 e.raw = djb2 e'.raw → e.raw = e'.raw) :
    ((e.Redelivers e' → syntheticEventId e.event = syntheticEventId e'.event) ∧
      (e.Differs e' → syntheticEventId e.event ≠ syntheticEventId e'.event)) ↔
    ¬ e.Conflated e' := by
  have ids := syntheticEventId_eq_iff mixes
  constructor
  · rintro ⟨-, apart⟩ conflated
    exact apart conflated.differs (ids.mpr conflated.1)
  · intro separate
    refine ⟨fun redelivers => ids.mpr redelivers.sameOrigin, fun differs same => separate ?_⟩
    exact (conflated_iff differs).mpr (ids.mp same)

namespace Demo

/-- A message that a tenant sends, without an id of its event. -/
def message (id text : String) (timestamp : Nat) : WireEvent where
  type := "message"
  timestamp := timestamp
  webhookEventId := none
  deliveryContext := some false
  source := some (.obj [("type", .str "user"), ("userId", .str "U1")])
  message := some (.obj [("type", .str "text"), ("id", .str id), ("text", .str text)])
  postback := none
  rest := []
  named := hello.named
  identified := nofun

def leaks : WireEvent := message "1" "the tap leaks" 1767225601000

/-- In the same millisecond. -/
def floods : WireEvent := message "2" "the floor is wet" 1767225601000

def later : WireEvent := message "2" "the floor is wet" 1767225601001

def inOneBatch : Webhook where
  decrypt := webhook.decrypt
  verifyLineSignature := webhook.verifyLineSignature
  parse _ := .ok ⟨"1656892461", [leaks.event, floods.event], batch.addressed, batch.bounded⟩

/-- The moves of a single delivery. -/
def undisturbed : List (Move (Fin 2)) :=
  [.next 0] ++ advances [0, 0, 0] ++ [.next 0] ++ advances [0, 0, 0] ++ [.next 0] ++
    advances [0, 0] ++ [.next 0] ++ advances [0, 0]

end Demo

/-- The messages of two milliseconds. -/
theorem syntheticEventId_distinguishes_later :
    ((Demo.leaks.Redelivers Demo.later →
        syntheticEventId Demo.leaks.event = syntheticEventId Demo.later.event) ∧
      (Demo.leaks.Differs Demo.later →
        syntheticEventId Demo.leaks.event ≠ syntheticEventId Demo.later.event)) ↔
    ¬ Demo.leaks.Conflated Demo.later :=
  syntheticEventId_distinguishes_iff Demo.leaks Demo.later (by decide +kernel)

/-- Two messages of one millisecond have one id, and the second is dropped as a
duplicate of the first. -/
theorem message_taken_for_another :
    Demo.leaks.Differs Demo.floods ∧ Demo.leaks.raw = Demo.floods.raw ∧
    syntheticEventId Demo.leaks.event = syntheticEventId Demo.floods.event ∧
    ∃ c ∈ (Config.startScripts Demo.siamCourt fun t =>
        handleWebhook Demo.inOneBatch (Demo.redelivered t)).moves (engine fun _ => true)
          Demo.undisturbed,
      c.told 0 = some (.ok ⟨1, 1⟩) ∧ c.jobs.length = 1 := by
  refine ⟨.inr (.inr (.inr (.inl ?_))), rfl, by decide +kernel, by decide +kernel⟩
  simp [Demo.leaks, Demo.floods, Demo.message, messageId, JsonValue.get?]

end Line
end Dormitory
