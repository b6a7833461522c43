import Dormitory.Json

/-!
# The text of a JSON value

`JSON.stringify` of every value. A text tells its value, and none stands after
a colon at the end of another one.
-/

namespace Dormitory

/-- What a number is written with. -/
def isNumeral (c : Char) : Bool := c.isDigit || c = '-' || c = '+' || c = '.' || c = 'e'

/-- A number, as JavaScript writes it. -/
structure Numeral where
  text : List Char
  some : text ≠ []
  chars : ∀ c ∈ text, isNumeral c = true
  deriving DecidableEq

/-- A parsed value. The members of an object are in their order. -/
inductive JsonValue where
  | null
  | bool (b : Bool)
  | num (n : Numeral)
  | str (s : String)
  | arr (elements : List JsonValue)
  | obj (members : List (String × JsonValue))

namespace JsonValue

/-- The member of a name. -/
def get? (name : String) : JsonValue → Option JsonValue
  | obj members => (members.find? fun m => m.1 = name).map fun m => m.2
  | _ => none

/-- `null`, `false`, `0` and the empty string are not. -/
def truthy : JsonValue → Bool
  | null => false
  | bool b => b
  | num n => n.text ≠ ['0']
  | str s => s ≠ ""
  | arr _ | obj _ => true

mutual

/-- `JSON.stringify`. -/
def stringify : JsonValue → List Char
  | null => ['n', 'u', 'l', 'l']
  | bool true => ['t', 'r', 'u', 'e']
  | bool false => ['f', 'a', 'l', 's', 'e']
  | num n => n.text
  | str s => Json.quote s
  | arr [] => ['[', ']']
  | arr (v :: vs) => '[' :: (stringify v ++ moreElements vs)
  | obj [] => ['{', '}']
  | obj ((name, v) :: ms) => '{' :: (Json.quote name ++ ':' :: (stringify v ++ moreMembers ms))

def moreElements : List JsonValue → List Char
  | [] => [']']
  | v :: vs => ',' :: (stringify v ++ moreElements vs)

def moreMembers : List (String × JsonValue) → List Char
  | [] => ['}']
  | (name, v) :: ms => ',' :: (Json.quote name ++ ':' :: (stringify v ++ moreMembers ms))

end

/-! ## A text tells its value -/

/-- What stands after a value in a text. -/
def Ends (r : List Char) : Prop := ∀ c ∈ r.head?, isNumeral c = false

theorem ends_nil : Ends [] := nofun

theorem ends_more (vs : List JsonValue) (r : List Char) : Ends (moreElements vs ++ r) := by
  cases vs <;> · rintro c ⟨⟩; decide

theorem ends_members (ms : List (String × JsonValue)) (r : List Char) :
    Ends (moreMembers ms ++ r) := by
  rcases ms with - | ⟨⟨name, v⟩, ms⟩ <;> · rintro c ⟨⟩; decide

/-- The kinds of values, by their first characters. -/
inductive Kind where
  | null | bool | num | str | arr | obj
  deriving DecidableEq

def Kind.ofChar (c : Char) : Option Kind :=
  if isNumeral c then some num
  else [('n', null), ('t', bool), ('f', bool), ('"', str), ('[', arr), ('{', obj)].lookup c

def kind : JsonValue → Kind
  | .null => .null
  | .bool _ => .bool
  | .num _ => .num
  | .str _ => .str
  | .arr _ => .arr
  | .obj _ => .obj

/-- The first character tells the kind. -/
theorem stringify_head (v : JsonValue) :
    ∃ c cs, stringify v = c :: cs ∧ Kind.ofChar c = some v.kind := by
  cases v with
  | null => exact ⟨_, _, rfl, by decide⟩
  | bool b => cases b <;> exact ⟨_, _, rfl, by decide⟩
  | num n =>
    obtain ⟨text, some, chars⟩ := n
    obtain ⟨c, cs, rfl⟩ := List.exists_cons_of_ne_nil some
    exact ⟨c, cs, rfl, if_pos (chars c List.mem_cons_self)⟩
  | str s => exact ⟨'"', _, rfl, rfl⟩
  | arr vs => cases vs <;> exact ⟨'[', _, rfl, rfl⟩
  | obj ms => rcases ms with - | ⟨⟨name, v⟩, ms⟩ <;> exact ⟨'{', _, rfl, rfl⟩

theorem kind_eq {v w : JsonValue} {r s : List Char} (h : stringify v ++ r = stringify w ++ s) :
    v.kind = w.kind := by
  obtain ⟨c, cs, head, first⟩ := stringify_head v
  obtain ⟨d, ds, head', first'⟩ := stringify_head w
  rw [head, head'] at h
  cases List.head_eq_of_cons_eq h
  exact Option.some.inj (first.symm.trans first')

/-- A closing bracket starts no value. -/
theorem stringify_ne_closing {v : JsonValue} {c : Char} (closing : Kind.ofChar c = none)
    (r s : List Char) : stringify v ++ r ≠ c :: s := by
  obtain ⟨d, ds, head, first⟩ := stringify_head v
  intro h
  rw [head] at h
  cases List.head_eq_of_cons_eq h
  cases closing.symm.trans first

theorem quote_inj {a b : String} {r s : List Char}
    (h : Json.quote a ++ r = Json.quote b ++ s) : a = b ∧ r = s := by
  simp only [Json.quote, List.cons_append, List.append_assoc, List.nil_append,
    List.cons.injEq, true_and] at h
  have read := congrArg Json.string h
  rw [Json.string_quote, Json.string_quote] at read
  exact Prod.mk.inj (Option.some.inj read)

theorem numeral_inj {m n : Numeral} {r s : List Char} (hr : Ends r) (hs : Ends s)
    (h : m.text ++ r = n.text ++ s) : m = n ∧ r = s := by
  have taken : ∀ {n : Numeral} {r : List Char}, Ends r →
      (n.text ++ r).takeWhile isNumeral = n.text := by
    intro n r ends
    rw [List.takeWhile_append_of_pos n.chars]
    cases r with
    | nil => exact List.append_nil _
    | cons c r => rw [List.takeWhile_cons_of_neg (by simp [ends c rfl]), List.append_nil]
  have same : m.text = n.text := by rw [← taken hr, h, taken hs]
  refine ⟨?_, ?_⟩
  · cases m
    cases n
    cases same
    rfl
  · rw [same] at h
    exact List.append_cancel_left h

mutual

/-- **A text tells its value**, and where it ends. -/
theorem stringify_inj : ∀ {v w : JsonValue} {r s : List Char}, Ends r → Ends s →
    stringify v ++ r = stringify w ++ s → v = w ∧ r = s
  | .null, w, r, s, _, _, h => by
    have same := kind_eq h
    cases w with
    | null => exact ⟨rfl, List.append_cancel_left h⟩
    | bool | num | str | arr | obj => cases same
  | .bool b, w, r, s, _, _, h => by
    have same := kind_eq h
    cases w with
    | bool b' =>
      cases b <;> cases b' <;>
        first | exact ⟨rfl, List.append_cancel_left h⟩ | cases List.head_eq_of_cons_eq h
    | null | num | str | arr | obj => cases same
  | .num n, w, r, s, hr, hs, h => by
    have same := kind_eq h
    cases w with
    | num n' =>
      obtain ⟨rfl, rest⟩ := numeral_inj hr hs h
      exact ⟨rfl, rest⟩
    | null | bool | str | arr | obj => cases same
  | .str t, w, r, s, _, _, h => by
    have same := kind_eq h
    cases w with
    | str t' =>
      obtain ⟨rfl, rest⟩ := quote_inj h
      exact ⟨rfl, rest⟩
    | null | bool | num | arr | obj => cases same
  | .arr vs, w, r, s, _, _, h => by
    have same := kind_eq h
    cases w with
    | arr ws =>
      match vs, ws, h with
      | [], [], h => exact ⟨rfl, List.append_cancel_left h⟩
      | [], w :: ws, h =>
        have inner : ']' :: r = stringify w ++ moreElements ws ++ s := List.tail_eq_of_cons_eq h
        rw [List.append_assoc] at inner
        exact absurd inner.symm (stringify_ne_closing rfl _ _)
      | v :: vs, [], h =>
        have inner : stringify v ++ moreElements vs ++ r = ']' :: s := List.tail_eq_of_cons_eq h
        rw [List.append_assoc] at inner
        exact absurd inner (stringify_ne_closing rfl _ _)
      | v :: vs, w :: ws, h =>
        have more : moreElements (v :: vs) ++ r = moreElements (w :: ws) ++ s :=
          congrArg (',' :: ·) (List.tail_eq_of_cons_eq h)
        obtain ⟨elements, after⟩ := moreElements_inj more
        exact ⟨congrArg arr elements, after⟩
    | null | bool | num | str | obj => cases same
  | .obj ms, w, r, s, _, _, h => by
    have same := kind_eq h
    cases w with
    | obj ns =>
      match ms, ns, h with
      | [], [], h => exact ⟨rfl, List.append_cancel_left h⟩
      | [], (name, w) :: ns, h => cases List.head_eq_of_cons_eq (List.tail_eq_of_cons_eq h)
      | (name, v) :: ms, [], h => cases List.head_eq_of_cons_eq (List.tail_eq_of_cons_eq h)
      | (name, v) :: ms, (name', w) :: ns, h =>
        have more : moreMembers ((name, v) :: ms) ++ r = moreMembers ((name', w) :: ns) ++ s :=
          congrArg (',' :: ·) (List.tail_eq_of_cons_eq h)
        obtain ⟨members, after⟩ := moreMembers_inj more
        exact ⟨congrArg obj members, after⟩
    | null | bool | num | str | arr => cases same

theorem moreElements_inj : ∀ {vs ws : List JsonValue} {r s : List Char},
    moreElements vs ++ r = moreElements ws ++ s → vs = ws ∧ r = s
  | [], [], r, s, h => ⟨rfl, List.tail_eq_of_cons_eq h⟩
  | [], w :: ws, r, s, h => by cases h
  | v :: vs, [], r, s, h => by cases h
  | v :: vs, w :: ws, r, s, h => by
    simp only [moreElements, List.cons_append, List.append_assoc, List.cons.injEq, true_and] at h
    obtain ⟨rfl, rest⟩ := stringify_inj (ends_more vs r) (ends_more ws s) h
    obtain ⟨rfl, after⟩ := moreElements_inj rest
    exact ⟨rfl, after⟩

theorem moreMembers_inj : ∀ {ms ns : List (String × JsonValue)} {r s : List Char},
    moreMembers ms ++ r = moreMembers ns ++ s → ms = ns ∧ r = s
  | [], [], r, s, h => ⟨rfl, List.tail_eq_of_cons_eq h⟩
  | [], (name, w) :: ns, r, s, h => by cases h
  | (name, v) :: ms, [], r, s, h => by cases h
  | (name, v) :: ms, (name', w) :: ns, r, s, h => by
    simp only [moreMembers, List.cons_append, List.append_assoc, List.cons.injEq, true_and] at h
    obtain ⟨rfl, value⟩ := quote_inj h
    have value := List.tail_eq_of_cons_eq value
    obtain ⟨rfl, rest⟩ := stringify_inj (ends_members ms r) (ends_members ns s) value
    obtain ⟨rfl, after⟩ := moreMembers_inj rest
    exact ⟨rfl, after⟩

end

end JsonValue

/-! ## No text ends another one, after a colon -/

/-- Where a reader of a text is: at a depth of brackets, out of strings or in
one, or behind a backslash in it. -/
inductive Scan where
  | out (depth : Nat)
  | inside (depth : Nat)
  | escaped (depth : Nat)
  | bad
  deriving DecidableEq

namespace Scan

def step : Scan → Char → Scan
  | out d, c =>
    if c = '"' then inside d
    else if c = '[' ∨ c = '{' then out (d + 1)
    else if c = ']' ∨ c = '}' then match d with
      | 0 => bad
      | d + 1 => out d
    else if c = ':' then match d with
      | 0 => bad
      | d + 1 => out (d + 1)
    else if c = '\\' then bad
    else out d
  | inside d, c => if c = '"' then out d else if c = '\\' then escaped d else inside d
  | escaped d, _ => inside d
  | bad, _ => bad

def run (s : Scan) (cs : List Char) : Scan := cs.foldl step s

@[simp] theorem run_nil (s : Scan) : s.run [] = s := rfl

@[simp] theorem run_cons (s : Scan) (c : Char) (cs : List Char) :
    s.run (c :: cs) = (s.step c).run cs := rfl

@[simp] theorem run_append (s : Scan) (l r : List Char) : s.run (l ++ r) = (s.run l).run r :=
  List.foldl_append

/-- The text closes the strings and the brackets that it opens, and no others. -/
def Balanced (cs : List Char) : Prop := ∀ d, (out d).run cs = out d

/-- A character without a meaning of its own. -/
def isPlain (c : Char) : Bool := c ∉ ['"', '[', '{', ']', '}', ':', '\\']

theorem isPlain_of_isNumeral {c : Char} (h : isNumeral c = true) : isPlain c = true := by
  have special : ∀ d ∈ ['"', '[', '{', ']', '}', ':', '\\'], (!isNumeral d) = true :=
    List.all_eq_true.mp (by decide)
  by_contra other
  have mem : c ∈ ['"', '[', '{', ']', '}', ':', '\\'] := by
    simpa only [isPlain, decide_eq_true_eq, not_not] using other
  have none := special c mem
  rw [h] at none
  cases none

theorem balanced_plain {cs : List Char} (plain : cs.all isPlain = true) : Balanced cs := by
  intro d
  induction cs with
  | nil => rfl
  | cons c cs ih =>
    rw [List.all_cons, Bool.and_eq_true] at plain
    obtain ⟨first, rest⟩ := plain
    simp only [isPlain, List.mem_cons, List.not_mem_nil, or_false, not_or,
      decide_eq_true_eq] at first
    have stays : (out d).step c = out d := by simp [step, first]
    rw [run_cons, stays]
    exact ih rest

theorem inside_step {c : Char} (quote : c ≠ '"') (backslash : c ≠ '\\') (d : Nat) :
    (inside d).step c = inside d := by
  simp only [step, quote, backslash, if_false]

theorem run_escape (c : Char) (d : Nat) : (inside d).run (Json.escape c) = inside d := by
  have hex : ∀ n < 16, Json.hexDigit n ≠ '"' ∧ Json.hexDigit n ≠ '\\' := by decide
  unfold Json.escape
  iterate 7
    split
    · rfl
  rename_i quote backslash _ _ _ _ _
  split
  · rename_i control
    obtain ⟨high, high'⟩ := hex (c.toNat / 16) (by omega)
    obtain ⟨low, low'⟩ := hex (c.toNat % 16) (by omega)
    change ((inside d).step _).step _ = inside d
    rw [inside_step high high', inside_step low low']
  · exact inside_step quote backslash d

theorem balanced_quote (s : String) : Balanced (Json.quote s) := by
  intro d
  have inner : ∀ cs : List Char, (inside d).run (cs.flatMap Json.escape) = inside d := by
    intro cs
    induction cs with
    | nil => rfl
    | cons c cs ih => rw [List.flatMap_cons, run_append, run_escape, ih]
  rw [Json.quote, List.cons_append, run_cons, run_append]
  change ((inside d).run _).run ['"'] = out d
  rw [inner]
  rfl

/-! ### A text from inside a string -/

/-- One reader is in a string where the other is not, or one of them has failed. -/
def Crossed : Scan → Scan → Prop
  | out _, inside _ | inside _, out _ | bad, _ | _, bad => True
  | _, _ => False

theorem out_step {c : Char} (quote : c ≠ '"') (d : Nat) :
    (∃ e, (out d).step c = out e) ∨ (out d).step c = bad := by
  simp only [step, quote, if_false]
  split
  · exact .inl ⟨_, rfl⟩
  split
  · cases d
    · exact .inr rfl
    · exact .inl ⟨_, rfl⟩
  split
  · cases d
    · exact .inr rfl
    · exact .inl ⟨_, rfl⟩
  split
  · exact .inr rfl
  · exact .inl ⟨_, rfl⟩

theorem crossed_bad (p : Scan) : Crossed p bad := by
  cases p <;> trivial

theorem Crossed.step {p q : Scan} (h : Crossed p q) (c : Char) : Crossed (p.step c) (q.step c) := by
  by_cases quote : c = '"'
  · subst quote
    match p, q, h with
    | out _, inside _, _ | inside _, out _, _ | bad, _, _ => trivial
    | _, bad, _ => exact crossed_bad _
  by_cases backslash : c = '\\'
  · subst backslash
    match p, q, h with
    | out _, inside _, _ | bad, _, _ => trivial
    | inside _, out _, _ | _, bad, _ => exact crossed_bad _
  -- Outside of strings a reader goes on or fails, and the other one stays in its string.
  match p, q, h with
  | out d, inside e, _ =>
    rw [inside_step quote backslash]
    rcases out_step quote d with ⟨_, stays⟩ | fails
    · rw [stays]
      trivial
    · rw [fails]
      trivial
  | inside d, out e, _ =>
    rw [inside_step quote backslash]
    rcases out_step quote e with ⟨_, stays⟩ | fails
    · rw [stays]
      trivial
    · rw [fails]
      trivial
  | bad, _, _ => trivial
  | _, bad, _ => exact crossed_bad _

theorem Crossed.run {p q : Scan} (h : Crossed p q) (cs : List Char) :
    Crossed (p.run cs) (q.run cs) := by
  induction cs generalizing p q with
  | nil => exact h
  | cons c cs ih => exact ih (h.step c)

theorem step_colon (s : Scan) : (∃ d, s.step ':' = out (d + 1)) ∨ (∃ d, s.step ':' = inside d) ∨
    s.step ':' = bad := by
  match s with
  | out 0 => exact .inr (.inr rfl)
  | out (d + 1) => exact .inl ⟨d, rfl⟩
  | inside d => exact .inr (.inl ⟨d, rfl⟩)
  | escaped d => exact .inr (.inl ⟨d, rfl⟩)
  | bad => exact .inr (.inr rfl)

theorem run_bad (cs : List Char) : bad.run cs = bad := by
  induction cs with
  | nil => rfl
  | cons c cs ih => exact ih

/-- **No balanced text ends another one, after a colon.** -/
theorem Balanced.ne_colon {l r : List Char} (whole : Balanced l) (rest : Balanced r)
    (x : List Char) : l ≠ x ++ ':' :: r := by
  rintro rfl
  have ends := whole 0
  rw [run_append, run_cons] at ends
  rcases step_colon ((out 0).run x) with ⟨d, deeper⟩ | ⟨d, within⟩ | failed
  · rw [deeper, rest] at ends
    cases ends
  · have crossed : Crossed ((out 0).run r) ((inside d).run r) :=
      Crossed.run (p := out 0) (q := inside d) trivial r
    rw [within] at ends
    rw [rest, ends] at crossed
    exact crossed
  · rw [failed, run_bad] at ends
    cases ends

/-- What stands before the last balanced text is told by the whole. -/
theorem Balanced.append_colon_inj {l l' r r' : List Char} (rest : Balanced r) (rest' : Balanced r')
    (h : l ++ ':' :: r = l' ++ ':' :: r') : l = l' ∧ r = r' := by
  rcases List.append_eq_append_iff.mp h with ⟨x, longer, split⟩ | ⟨x, longer, split⟩
  · cases x with
    | nil => exact ⟨by simp [longer], List.tail_eq_of_cons_eq split⟩
    | cons d x => exact absurd (List.tail_eq_of_cons_eq split) (rest.ne_colon rest' x)
  · cases x with
    | nil => exact ⟨by simp [longer], (List.tail_eq_of_cons_eq split).symm⟩
    | cons d x => exact absurd (List.tail_eq_of_cons_eq split) (rest'.ne_colon rest x)

end Scan

namespace JsonValue
open Scan

mutual

theorem balanced_stringify : ∀ v : JsonValue, Balanced (stringify v)
  | .null => balanced_plain (by decide)
  | .bool true => balanced_plain (by decide)
  | .bool false => balanced_plain (by decide)
  | .num n => balanced_plain (List.all_eq_true.mpr fun c mem =>
      isPlain_of_isNumeral (n.chars c mem))
  | .str s => balanced_quote s
  | .arr [] => fun d => rfl
  | .arr (v :: vs) => fun d => by
    change (out (d + 1)).run (stringify v ++ moreElements vs) = out d
    rw [run_append, balanced_stringify v, run_moreElements vs d]
  | .obj [] => fun d => rfl
  | .obj ((name, v) :: ms) => fun d => by
    change (out (d + 1)).run (Json.quote name ++ ':' :: (stringify v ++ moreMembers ms)) = out d
    rw [run_append, balanced_quote, run_cons]
    change (out (d + 1)).run (stringify v ++ moreMembers ms) = out d
    rw [run_append, balanced_stringify v, run_moreMembers ms d]

theorem run_moreElements : ∀ (vs : List JsonValue) (d : Nat),
    (out (d + 1)).run (moreElements vs) = out d
  | [], d => rfl
  | v :: vs, d => by
    change (out (d + 1)).run (stringify v ++ moreElements vs) = out d
    rw [run_append, balanced_stringify v, run_moreElements vs d]

theorem run_moreMembers : ∀ (ms : List (String × JsonValue)) (d : Nat),
    (out (d + 1)).run (moreMembers ms) = out d
  | [], d => rfl
  | (name, v) :: ms, d => by
    change (out (d + 1)).run (Json.quote name ++ ':' :: (stringify v ++ moreMembers ms)) = out d
    rw [run_append, balanced_quote, run_cons]
    change (out (d + 1)).run (stringify v ++ moreMembers ms) = out d
    rw [run_append, balanced_stringify v, run_moreMembers ms d]

end

end JsonValue
end Dormitory
