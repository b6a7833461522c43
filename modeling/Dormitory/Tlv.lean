import Mathlib.Data.List.Basic
import Mathlib.Tactic.Common

/-!
# Tag, length, value

A record is a tag of fixed width, the length of its value in a fixed number of
symbols, and the value. The grammar is a relation; a parser that decides it is
defined beside it.
-/

namespace Dormitory.Tlv

/-- How tags and lengths are written. -/
structure Format (α : Type) where
  tagWidth : Nat
  lengthWidth : Nat
  isTag : List α → Bool
  readLength : List α → Option Nat
  tag_pos : 0 < tagWidth

structure Field (α : Type) where
  tag : List α
  value : List α
  deriving DecidableEq, Repr

variable {α : Type} {F : Format α}

/-- The records a text is made of, none of it left out. -/
inductive Reads (F : Format α) : List α → List (Field α) → Prop
  | done : Reads F [] []
  | field {tag length value rest : List α} {fields : List (Field α)}
      (width : tag.length = F.tagWidth) (isTag : F.isTag tag = true)
      (lengthWidth : length.length = F.lengthWidth)
      (reads : F.readLength length = some value.length) (more : Reads F rest fields) :
      Reads F (tag ++ length ++ value ++ rest) (⟨tag, value⟩ :: fields)

/-- The first record and what follows it. -/
def next (F : Format α) (text : List α) : Option (Field α × List α) :=
  let tag := text.take F.tagWidth
  let length := (text.drop F.tagWidth).take F.lengthWidth
  let rest := text.drop (F.tagWidth + F.lengthWidth)
  if tag.length = F.tagWidth ∧ F.isTag tag ∧ length.length = F.lengthWidth then
    match F.readLength length with
    | some n => if n ≤ rest.length then some (⟨tag, rest.take n⟩, rest.drop n) else none
    | none => none
  else none

def parseWithin (F : Format α) : Nat → List α → Option (List (Field α))
  | _, [] => some []
  | 0, _ :: _ => none
  | fuel + 1, text => do
    let (field, rest) ← next F text
    return field :: (← parseWithin F fuel rest)

/-- Every record takes a symbol, so the text's length is enough fuel. -/
def parse (F : Format α) (text : List α) : Option (List (Field α)) :=
  parseWithin F text.length text

theorem next_record {tag length value rest : List α} (width : tag.length = F.tagWidth)
    (isTag : F.isTag tag = true) (lengthWidth : length.length = F.lengthWidth)
    (reads : F.readLength length = some value.length) :
    next F (tag ++ length ++ value ++ rest) = some (⟨tag, value⟩, rest) := by
  have tagTake : (tag ++ length ++ value ++ rest).take F.tagWidth = tag := by
    simp [← width]
  have tagDrop : (tag ++ length ++ value ++ rest).drop F.tagWidth = length ++ value ++ rest := by
    simp [← width]
  have lengthTake : (length ++ value ++ rest).take F.lengthWidth = length := by
    simp [← lengthWidth]
  have lengthDrop : (length ++ value ++ rest).drop F.lengthWidth = value ++ rest := by
    simp [← lengthWidth]
  simp only [next, ← List.drop_drop, tagTake, tagDrop, lengthTake, lengthDrop]
  simp [width, isTag, lengthWidth, reads]

/-- What `next` takes off is a record of the text. -/
theorem next_some {text rest : List α} {f : Field α} (h : next F text = some (f, rest)) :
    ∃ length, text = f.tag ++ length ++ f.value ++ rest ∧ f.tag.length = F.tagWidth ∧
      F.isTag f.tag = true ∧ length.length = F.lengthWidth ∧
      F.readLength length = some f.value.length := by
  simp only [next] at h
  split at h
  · rename_i shape
    obtain ⟨width, isTag, lengthWidth⟩ := shape
    split at h
    · rename_i n reads
      split at h
      · rename_i enough
        obtain ⟨rfl, rfl⟩ := Prod.mk.inj (Option.some.inj h)
        refine ⟨(text.drop F.tagWidth).take F.lengthWidth, ?_, width, isTag, lengthWidth, ?_⟩
        · simp [← List.drop_drop, List.append_assoc]
        · rw [reads, List.length_take, Nat.min_eq_left enough]
      · cases h
    · cases h
  · cases h

/-- A derivation determines the text's records, and the parser finds them. -/
theorem Reads.parseWithin_eq {text : List α} {fields : List (Field α)} (h : Reads F text fields)
    {fuel : Nat} (enough : text.length ≤ fuel) : parseWithin F fuel text = some fields := by
  induction h generalizing fuel with
  | done => cases fuel <;> rfl
  | @field tag length value rest fields width isTag lengthWidth reads more ih =>
    have pos := F.tag_pos
    simp only [List.length_append, width] at enough
    obtain ⟨fuel, rfl⟩ : ∃ n, fuel = n + 1 := ⟨fuel - 1, by omega⟩
    have nonempty : tag ++ length ++ value ++ rest ≠ [] := by
      intro h
      have := congrArg List.length h
      simp only [List.length_append, width, List.length_nil] at this
      omega
    have found := ih (show rest.length ≤ fuel by omega)
    rw [parseWithin]
    · rw [next_record width isTag lengthWidth reads]
      simp [found]
    · exact nonempty

theorem reads_of_parseWithin {fuel : Nat} {text : List α} {fields : List (Field α)}
    (h : parseWithin F fuel text = some fields) : Reads F text fields := by
  induction fuel generalizing text fields with
  | zero =>
    cases text with
    | nil => cases h; exact .done
    | cons => cases h
  | succ fuel ih =>
    cases text with
    | nil => cases h; exact .done
    | cons a as =>
      simp only [parseWithin, Option.bind_eq_bind, Option.bind_eq_some_iff, Option.pure_def,
        Option.some.injEq] at h
      obtain ⟨⟨f, rest⟩, first, fields, more, rfl⟩ := h
      obtain ⟨length, shape, width, isTag, lengthWidth, reads⟩ := next_some first
      rw [shape]
      exact .field width isTag lengthWidth reads (ih more)

/-- **The parser decides the grammar.** -/
theorem reads_iff_parse {text : List α} {fields : List (Field α)} :
    Reads F text fields ↔ parse F text = some fields :=
  ⟨fun h => h.parseWithin_eq (Nat.le_refl _), reads_of_parseWithin⟩

/-- A text has at most one list of records. -/
theorem Reads.iff_eq {text : List α} {fields : List (Field α)} (h : Reads F text fields)
    (other : List (Field α)) : Reads F text other ↔ other = fields := by
  constructor
  · intro h'
    exact Option.some.inj ((reads_iff_parse.mp h').symm.trans (reads_iff_parse.mp h))
  · rintro rfl
    exact h

/-! ## Writing records -/

/-- Texts that are read one after the other are read as one. -/
theorem Reads.append {s t : List α} {fs gs : List (Field α)} (hs : Reads F s fs)
    (ht : Reads F t gs) : Reads F (s ++ t) (fs ++ gs) := by
  induction hs with
  | done => exact ht
  | field width isTag lengthWidth reads more ih =>
    rw [List.append_assoc]
    exact .field width isTag lengthWidth reads ih

theorem reads_one (tag length : List α) {value : List α} (width : tag.length = F.tagWidth)
    (isTag : F.isTag tag = true) (lengthWidth : length.length = F.lengthWidth)
    (reads : F.readLength length = some value.length) :
    Reads F (tag ++ length ++ value) [⟨tag, value⟩] := by
  simpa using Reads.field width isTag lengthWidth reads (Reads.done (F := F))

end Dormitory.Tlv
