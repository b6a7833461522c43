import Mathlib.Data.List.Basic
import Mathlib.Tactic.Common

/-!
# JSON texts

`JSON.parse`, and `JSON.stringify` for an object of strings, which it reads back.
-/

namespace Dormitory

/-- The value of a number is not kept. -/
inductive Json where
  | null
  | bool (b : Bool)
  | num
  | str (s : String)
  | arr (elements : List Json)
  | obj (members : List (String × Json))

namespace Json

/-- The member of a name; the last one of several counts. -/
def get? (members : List (String × Json)) (name : String) : Option Json :=
  (members.reverse.find? fun m => m.1 = name).map fun m => m.2

/-! ## Strings -/

def hexDigit (n : Nat) : Char := if n < 10 then Char.ofNat (n + 48) else Char.ofNat (n + 87)

def hexValue (c : Char) : Option Nat :=
  if '0' ≤ c ∧ c ≤ '9' then some (c.toNat - 48)
  else if 'a' ≤ c ∧ c ≤ 'f' then some (c.toNat - 87)
  else if 'A' ≤ c ∧ c ≤ 'F' then some (c.toNat - 55)
  else none

/-- The escapes of one letter, besides `\u`. -/
def shortEscapes : List (Char × Char) :=
  [('"', '"'), ('\\', '\\'), ('/', '/'), ('b', '\x08'), ('f', '\x0c'), ('n', '\n'), ('r', '\r'),
    ('t', '\t')]

/-- A character as `QuoteJSONString` writes it. -/
def escape (c : Char) : List Char :=
  if c = '"' then ['\\', '"']
  else if c = '\\' then ['\\', '\\']
  else if c = '\x08' then ['\\', 'b']
  else if c = '\x0c' then ['\\', 'f']
  else if c = '\n' then ['\\', 'n']
  else if c = '\r' then ['\\', 'r']
  else if c = '\t' then ['\\', 't']
  else if c.toNat < 32 then ['\\', 'u', '0', '0', hexDigit (c.toNat / 16), hexDigit (c.toNat % 16)]
  else [c]

def quote (s : String) : List Char := '"' :: s.toList.flatMap escape ++ ['"']

/-- What stands for itself in a string, and the code unit of a `\u`. -/
inductive Item where
  | char (c : Char)
  | unit (n : Nat)

def fourHex : List Char → Option (Nat × List Char)
  | a :: b :: c :: d :: rest => do
    let a ← hexValue a
    let b ← hexValue b
    let c ← hexValue c
    let d ← hexValue d
    return (a * 4096 + b * 256 + c * 16 + d, rest)
  | _ => none

def item : List Char → Option (Item × List Char)
  | [] => none
  | c :: rest =>
    if c = '\\' then
      match rest with
      | [] => none
      | e :: rest =>
        if e = 'u' then (fourHex rest).map fun (n, rest) => (.unit n, rest)
        else (shortEscapes.lookup e).map fun c => (.char c, rest)
    else if c.toNat < 32 then none
    else some (.char c, rest)

/-- The items up to the closing quote. -/
def items : Nat → List Char → Option (List Item × List Char)
  | 0, _ => none
  | fuel + 1, cs =>
    if cs.head? = some '"' then some ([], cs.drop 1)
    else do
      let (first, rest) ← item cs
      let (more, rest) ← items fuel rest
      return (first :: more, rest)

/-- A code unit that is no half of a pair. A lone half has no character. -/
def scalar (n : Nat) : Char := if 0xD800 ≤ n ∧ n < 0xE000 then Char.ofNat 0xFFFD else Char.ofNat n

/-- The characters of the items, two halves of a pair put together. -/
def characters : List Item → List Char
  | [] => []
  | .char c :: rest => c :: characters rest
  | .unit high :: .unit low :: rest =>
    if (0xD800 ≤ high ∧ high < 0xDC00) ∧ 0xDC00 ≤ low ∧ low < 0xE000 then
      Char.ofNat (0x10000 + (high - 0xD800) * 1024 + (low - 0xDC00)) :: characters rest
    else scalar high :: characters (.unit low :: rest)
  | .unit n :: rest => scalar n :: characters rest

/-- A string after its opening quote. -/
def string (cs : List Char) : Option (String × List Char) :=
  (items (cs.length + 1) cs).map fun (is, rest) => (String.ofList (characters is), rest)

/-! ## Values -/

def skip (cs : List Char) : List Char :=
  cs.dropWhile fun c => c = ' ' || c = '\t' || c = '\n' || c = '\r'

/-- The text after the character. -/
def expect (c : Char) (cs : List Char) : Option (List Char) :=
  if cs.head? = some c then some (cs.drop 1) else none

def digits (cs : List Char) : Option (List Char) :=
  if (cs.takeWhile Char.isDigit).isEmpty then none else some (cs.dropWhile Char.isDigit)

/-- The text after a number. -/
def number (cs : List Char) : Option (List Char) := do
  let cs := (expect '-' cs).getD cs
  let cs ← (expect '0' cs).orElse fun _ => digits cs
  let cs ← match expect '.' cs with
    | some cs => digits cs
    | none => some cs
  match (expect 'e' cs).orElse fun _ => expect 'E' cs with
  | some cs => digits (((expect '+' cs).orElse fun _ => expect '-' cs).getD cs)
  | none => some cs

def keyword (word : String) (v : Json) (cs : List Char) : Option (Json × List Char) :=
  if word.toList.isPrefixOf cs then some (v, cs.drop word.length) else none

mutual

def value : Nat → List Char → Option (Json × List Char)
  | 0, _ => none
  | fuel + 1, text =>
    let cs := skip text
    if cs.head? = some '"' then (string (cs.drop 1)).map fun (s, rest) => (.str s, rest)
    else if cs.head? = some '[' then
      match expect ']' (skip (cs.drop 1)) with
      | some rest => some (.arr [], rest)
      | none => (elements fuel (cs.drop 1)).map fun (vs, rest) => (.arr vs, rest)
    else if cs.head? = some '{' then
      match expect '}' (skip (cs.drop 1)) with
      | some rest => some (.obj [], rest)
      | none => (members fuel (cs.drop 1)).map fun (ms, rest) => (.obj ms, rest)
    else (keyword "null" .null cs).orElse fun _ =>
      (keyword "true" (.bool true) cs).orElse fun _ =>
      (keyword "false" (.bool false) cs).orElse fun _ =>
      (number cs).map fun rest => (.num, rest)

/-- The elements up to the bracket. -/
def elements : Nat → List Char → Option (List Json × List Char)
  | 0, _ => none
  | fuel + 1, cs => do
    let (v, rest) ← value fuel cs
    match expect ']' (skip rest) with
    | some rest => return ([v], rest)
    | none =>
      let rest ← expect ',' (skip rest)
      let (vs, rest) ← elements fuel rest
      return (v :: vs, rest)

/-- The members up to the brace. -/
def members : Nat → List Char → Option (List (String × Json) × List Char)
  | 0, _ => none
  | fuel + 1, cs => do
    let (name, rest) ← string (← expect '"' (skip cs))
    let (v, rest) ← value fuel (← expect ':' (skip rest))
    match expect '}' (skip rest) with
    | some rest => return ([(name, v)], rest)
    | none =>
      let rest ← expect ',' (skip rest)
      let (ms, rest) ← members fuel rest
      return ((name, v) :: ms, rest)

end

/-- `JSON.parse`. Every bracket and every separator is a symbol of the text, so
that twice its length is enough fuel. -/
def parse (text : String) : Option Json := do
  let (v, rest) ← value (2 * text.toList.length + 2) text.toList
  if (skip rest).isEmpty then return v else none

/-- The members after the opening brace. -/
def stringifyMembers : List (String × String) → List Char
  | [] => ['}']
  | [(name, s)] => quote name ++ ':' :: quote s ++ ['}']
  | (name, s) :: rest => quote name ++ ':' :: quote s ++ ',' :: stringifyMembers rest

/-- `JSON.stringify`. -/
def stringify (members : List (String × String)) : String :=
  String.ofList ('{' :: stringifyMembers members)

/-! ## What is written is read back -/

theorem hexValue_hexDigit : ∀ n < 16, hexValue (hexDigit n) = some n := by decide

/-- The item stands for the character, whatever follows. -/
def Item.Shows (i : Item) (c : Char) : Prop := ∀ is, characters (i :: is) = c :: characters is

theorem shows_char (c : Char) : (Item.char c).Shows c := fun _ => by rw [characters]

theorem shows_control {c : Char} (h : c.toNat < 32) : (Item.unit c.toNat).Shows c := by
  intro is
  have self : scalar c.toNat = c := by
    rw [scalar, if_neg (by omega), Char.ofNat_toNat]
  cases is with
  | nil => simp only [characters, self]
  | cons i is =>
    cases i with
    | char d => simp only [characters, self]
    | unit low => rw [characters, if_neg (by omega), self]

theorem fourHex_control {n : Nat} (h : n < 32) (rest : List Char) :
    fourHex ('0' :: '0' :: hexDigit (n / 16) :: hexDigit (n % 16) :: rest) = some (n, rest) := by
  have zero : hexValue '0' = some 0 := by decide
  simp only [fourHex, zero, hexValue_hexDigit (n / 16) (by omega),
    hexValue_hexDigit (n % 16) (by omega), Option.bind_eq_bind, Option.bind_some, Option.pure_def,
    Option.some.injEq, Prod.mk.injEq, and_true]
  omega

/-- An escaped character is one item. -/
theorem item_escape (c : Char) (rest : List Char) :
    ∃ i, item (escape c ++ rest) = some (i, rest) ∧ i.Shows c := by
  unfold escape
  iterate 7
    split
    · rename_i same
      subst same
      exact ⟨.char _, rfl, shows_char _⟩
  rename_i noQuote noBackslash _ _ _ _ _
  split
  · rename_i control
    refine ⟨.unit c.toNat, ?_, shows_control control⟩
    simp only [List.cons_append, List.nil_append, item, if_true, fourHex_control control rest,
      Option.map_some]
  · rename_i printable
    refine ⟨.char c, ?_, shows_char c⟩
    simp only [List.cons_append, List.nil_append, item, if_neg noBackslash, if_neg printable]

theorem escape_head (c : Char) : ∃ d ds, escape c = d :: ds ∧ d ≠ '"' := by
  unfold escape
  split
  · exact ⟨_, _, rfl, by decide⟩
  · rename_i plain
    repeat' split
    all_goals first | exact ⟨_, _, rfl, by decide⟩ | exact ⟨_, _, rfl, plain⟩

theorem items_quote (cs rest : List Char) (fuel : Nat) (enough : cs.length < fuel) :
    ∃ is, items fuel (cs.flatMap escape ++ '"' :: rest) = some (is, rest) ∧ characters is = cs := by
  induction cs generalizing fuel with
  | nil =>
    obtain ⟨fuel, rfl⟩ := Nat.exists_eq_add_one_of_ne_zero (Nat.ne_of_gt enough)
    exact ⟨[], rfl, by rw [characters]⟩
  | cons c cs ih =>
    obtain ⟨fuel, rfl⟩ := Nat.exists_eq_add_one_of_ne_zero (Nat.ne_zero_of_lt enough)
    rw [List.length_cons] at enough
    obtain ⟨is, more, same⟩ := ih fuel (by omega)
    obtain ⟨i, first, shows'⟩ := item_escape c (cs.flatMap escape ++ '"' :: rest)
    obtain ⟨d, ds, head, apart⟩ := escape_head c
    refine ⟨i :: is, ?_, by rw [shows', same]⟩
    rw [List.flatMap_cons, List.append_assoc, items, if_neg (by simp [head, apart]), first]
    simp only [Option.bind_eq_bind, Option.bind_some, more, Option.pure_def]

theorem string_quote (s : String) (rest : List Char) :
    string (s.toList.flatMap escape ++ '"' :: rest) = some (s, rest) := by
  have long : s.toList.length ≤ (s.toList.flatMap escape).length := by
    induction s.toList with
    | nil => exact Nat.zero_le _
    | cons c cs ih =>
      obtain ⟨d, ds, head, -⟩ := escape_head c
      rw [List.flatMap_cons, List.length_append, head, List.length_cons, List.length_cons]
      omega
  obtain ⟨is, read, same⟩ := items_quote s.toList rest
    ((s.toList.flatMap escape ++ '"' :: rest).length + 1) (by
      rw [List.length_append]
      omega)
  simp only [string, read, Option.map_some, same, String.ofList_toList]

theorem value_quote (s : String) (rest : List Char) (fuel : Nat) :
    value (fuel + 1) (quote s ++ rest) = some (.str s, rest) := by
  have read := string_quote s rest
  have split : quote s ++ rest = '"' :: (s.toList.flatMap escape ++ '"' :: rest) := by
    simp only [quote, List.cons_append, List.append_assoc, List.nil_append]
  have start : skip ('"' :: (s.toList.flatMap escape ++ '"' :: rest)) =
      '"' :: (s.toList.flatMap escape ++ '"' :: rest) := List.dropWhile_cons_of_neg (by decide)
  rw [split, value]
  simp only [start, List.head?_cons, if_true, List.drop_one, List.tail_cons, read, Option.map_some]

/-- The members as they are read. -/
def strings (ms : List (String × String)) : List (String × Json) := ms.map fun m => (m.1, .str m.2)

theorem expect_self (c : Char) (cs : List Char) : expect c (c :: cs) = some cs := if_pos rfl

theorem expect_other {c d : Char} (apart : d ≠ c) (cs : List Char) : expect c (d :: cs) = none :=
  if_neg fun same => apart (Option.some.inj same)

/-- One member, up to what follows its value. -/
theorem members_first (name s : String) (tail : List Char) (fuel : Nat) :
    members (fuel + 2) (quote name ++ ':' :: (quote s ++ tail)) =
      match expect '}' (skip tail) with
      | some rest => some ([(name, .str s)], rest)
      | none => do
        let (ms, rest) ← members (fuel + 1) (← expect ',' (skip tail))
        return ((name, .str s) :: ms, rest) := by
  have split : quote name ++ ':' :: (quote s ++ tail) =
      '"' :: (name.toList.flatMap escape ++ '"' :: ':' :: (quote s ++ tail)) := by
    simp only [quote, List.cons_append, List.append_assoc, List.nil_append]
  have start : ∀ cs, skip ('"' :: cs) = '"' :: cs := fun cs =>
    List.dropWhile_cons_of_neg (by decide)
  have colon : ∀ cs, skip (':' :: cs) = ':' :: cs := fun cs =>
    List.dropWhile_cons_of_neg (by decide)
  rw [split, members]
  simp only [start, expect_self, Option.bind_eq_bind, Option.bind_some, string_quote, colon,
    value_quote]
  cases expect '}' (skip tail) <;> rfl

theorem members_stringify {ms : List (String × String)} (some : ms ≠ []) (rest : List Char)
    (fuel : Nat) (enough : ms.length < fuel) :
    members fuel (stringifyMembers ms ++ rest) = Option.some (strings ms, rest) := by
  have comma : ∀ cs, skip (',' :: cs) = ',' :: cs := fun cs =>
    List.dropWhile_cons_of_neg (by decide)
  have brace : ∀ cs, skip ('}' :: cs) = '}' :: cs := fun cs =>
    List.dropWhile_cons_of_neg (by decide)
  induction ms generalizing fuel with
  | nil => exact absurd rfl some
  | cons m ms ih =>
    obtain ⟨name, s⟩ := m
    rw [List.length_cons] at enough
    obtain ⟨fuel, rfl⟩ := Nat.exists_eq_add_of_le' (show 2 ≤ fuel by omega)
    cases ms with
    | nil =>
      have last : stringifyMembers [(name, s)] ++ rest =
          quote name ++ ':' :: (quote s ++ '}' :: rest) := by
        simp only [stringifyMembers, List.append_assoc, List.cons_append, List.nil_append]
      rw [last, members_first, brace, expect_self]
      rfl
    | cons m' ms =>
      have more : stringifyMembers ((name, s) :: m' :: ms) ++ rest =
          quote name ++ ':' :: (quote s ++ ',' :: (stringifyMembers (m' :: ms) ++ rest)) := by
        simp only [stringifyMembers, List.append_assoc, List.cons_append]
      have read := ih (List.cons_ne_nil _ _) (fuel + 1) (by omega)
      rw [more, members_first, comma, expect_other (by decide), expect_self]
      simp only [Option.bind_eq_bind, Option.bind_some, read]
      rfl

theorem stringifyMembers_head (m : String × String) (ms : List (String × String)) :
    ∃ tail, stringifyMembers (m :: ms) = '"' :: tail := by
  cases ms <;> exact ⟨_, rfl⟩

theorem length_stringifyMembers (ms : List (String × String)) :
    ms.length ≤ (stringifyMembers ms).length := by
  induction ms with
  | nil => exact Nat.zero_le _
  | cons m ms ih =>
    cases ms with
    | nil =>
      simp only [stringifyMembers, List.length_append, List.length_cons, List.length_nil]
      omega
    | cons m' ms =>
      simp only [stringifyMembers, List.length_append, List.length_cons] at ih ⊢
      omega

/-- **What is written is read back.** -/
theorem parse_stringify (ms : List (String × String)) :
    parse (stringify ms) = some (.obj (strings ms)) := by
  have start : ∀ cs, skip ('{' :: cs) = '{' :: cs := fun cs =>
    List.dropWhile_cons_of_neg (by decide)
  have quoted : ∀ cs, skip ('"' :: cs) = '"' :: cs := fun cs =>
    List.dropWhile_cons_of_neg (by decide)
  have read : value (2 * (stringify ms).toList.length + 2) (stringify ms).toList =
      some (.obj (strings ms), []) := by
    rw [stringify, String.toList_ofList, List.length_cons, value]
    cases ms with
    | nil => rfl
    | cons m ms =>
      obtain ⟨tail, head⟩ := stringifyMembers_head m ms
      have long := length_stringifyMembers (m :: ms)
      have rest := members_stringify (List.cons_ne_nil m ms) []
        (2 * ((stringifyMembers (m :: ms)).length + 1) + 1) (by omega)
      rw [List.append_nil] at rest
      have open' : expect '}' (skip (stringifyMembers (m :: ms))) = none := by
        rw [head, quoted, expect_other (by decide)]
      simp only [start, List.head?_cons, List.drop_one, List.tail_cons, open', rest,
        Option.map_some, Option.some.injEq, Char.reduceEq, if_false, if_true]
  simp only [parse, read, Option.bind_eq_bind, Option.bind_some]
  rfl

end Json
end Dormitory
