import Mathlib.Data.List.Basic
import Mathlib.Data.List.Chain
import Mathlib.Data.List.DropRight
import Mathlib.Data.List.TakeWhile

/-!
# Words

A text is cut into words at its separators; other characters that belong to no
word are dropped, and so are empty words. The steps that clean a text keep its
words, and a text that is clean is its words, joined by single hyphens.
-/

namespace Dormitory.Words

variable {α : Type}

/-! ## Cleaning -/

/-- Every longest run of characters of `p` becomes one `r`. -/
def replaceRuns (p : α → Bool) (r : α) : List α → List α
  | [] => []
  | c :: cs =>
    if p c then if cs.head?.any p then replaceRuns p r cs else r :: replaceRuns p r cs
    else c :: replaceRuns p r cs

/-- Without the characters of `p` at either end. -/
def strip (p : α → Bool) (l : List α) : List α :=
  ((l.dropWhile p).reverse.dropWhile p).reverse

theorem mem_replaceRuns {p : α → Bool} {r c : α} {l : List α} (mem : c ∈ replaceRuns p r l) :
    c = r ∨ c ∈ l ∧ p c = false := by
  induction l with
  | nil => cases mem
  | cons d cs ih =>
    rw [replaceRuns] at mem
    by_cases run : p d = true
    · rw [if_pos run] at mem
      have rest : c ∈ replaceRuns p r cs → c = r ∨ c ∈ d :: cs ∧ p c = false := fun mem =>
        (ih mem).imp_right fun later => ⟨List.mem_cons_of_mem d later.1, later.2⟩
      split at mem
      · exact rest mem
      · rcases List.mem_cons.mp mem with rfl | mem
        · exact .inl rfl
        · exact rest mem
    · rw [if_neg run] at mem
      rcases List.mem_cons.mp mem with rfl | mem
      · exact .inr ⟨List.mem_cons_self, by simpa using run⟩
      · exact (ih mem).imp_right fun later => ⟨List.mem_cons_of_mem d later.1, later.2⟩

/-- What is not the start of a run stays where it is. -/
theorem head?_replaceRuns {p : α → Bool} {l : List α} (front : l.head?.any p = false) (r : α) :
    (replaceRuns p r l).head? = l.head? := by
  cases l with
  | nil => rfl
  | cons c cs =>
    have other : ¬ p c = true := by simpa using front
    rw [replaceRuns, if_neg other]
    rfl

theorem single_replaceRuns [DecidableEq α] (d : α) (l : List α) :
    (replaceRuns (· = d) d l).IsChain fun a b => ¬ (a = d ∧ b = d) := by
  induction l with
  | nil => exact .nil
  | cons c cs ih =>
    rw [replaceRuns]
    split
    · split
      · exact ih
      · rename_i last
        refine List.isChain_cons.mpr ⟨fun b next both => last ?_, ih⟩
        rw [head?_replaceRuns (by simpa using last)] at next
        rw [Option.mem_def.mp next]
        simpa using both.2
    · rename_i other
      exact List.isChain_cons.mpr ⟨fun b _ both => other (by simpa using both.1), ih⟩

theorem dropWhile_eq {p : α → Bool} {l : List α} (first : l.head?.any p = false) :
    l.dropWhile p = l := by
  cases l with
  | nil => rfl
  | cons c cs => exact List.dropWhile_cons_of_neg (by simpa using first)

/-- Nothing to strip. -/
theorem strip_eq {p : α → Bool} {l : List α} (first : l.head?.any p = false)
    (last : l.getLast?.any p = false) : strip p l = l := by
  have back : l.reverse.dropWhile p = l.reverse :=
    dropWhile_eq (by rwa [List.head?_reverse])
  rw [strip, dropWhile_eq first, back, List.reverse_reverse]

theorem strip_front (p : α → Bool) (l : List α) : (strip p l).IsPrefix (l.dropWhile p) := by
  rw [strip, ← List.reverse_suffix, List.reverse_reverse]
  exact List.dropWhile_suffix p

theorem strip_within (p : α → Bool) (l : List α) : (strip p l).IsInfix l :=
  (strip_front p l).isInfix.trans (List.dropWhile_suffix p).isInfix

/-- Stripping changes nothing that is stripped. -/
theorem strip_strip (p : α → Bool) (l : List α) : strip p (strip p l) = strip p l := by
  have front : (strip p l).dropWhile p = strip p l := by
    obtain ⟨rest, same⟩ := strip_front p l
    have first := List.head?_dropWhile_not p l
    cases text : strip p l with
    | nil => rfl
    | cons c cs =>
      rw [← same, text] at first
      exact List.dropWhile_cons_of_neg (by simpa using first)
  have back : ((strip p l).reverse.dropWhile p).reverse = strip p l := by
    rw [strip, List.reverse_reverse, List.dropWhile_idempotent]
  rw [strip, front, back]

/-! ## Words -/

def push (w : List α) (ws : List (List α)) : List (List α) := if w.isEmpty then ws else w :: ws

/-- The word at the front, which may be empty, and the words behind it. -/
def cut (sep keep : α → Bool) : List α → List α × List (List α)
  | [] => ([], [])
  | c :: cs =>
    let (w, ws) := cut sep keep cs
    if sep c then ([], push w ws) else if keep c then (c :: w, ws) else (w, ws)

def words (sep keep : α → Bool) (l : List α) : List (List α) :=
  push (cut sep keep l).1 (cut sep keep l).2

section cut
variable {sep keep : α → Bool}

theorem cut_sep {c : α} (ends : sep c = true) (cs : List α) :
    cut sep keep (c :: cs) = ([], words sep keep cs) := by
  simp [cut, words, ends]

theorem cut_keep {c : α} (inner : sep c = false) (kept : keep c = true) (cs : List α) :
    cut sep keep (c :: cs) = (c :: (cut sep keep cs).1, (cut sep keep cs).2) := by
  simp [cut, inner, kept]

theorem cut_drop {c : α} (inner : sep c = false) (dropped : keep c = false) (cs : List α) :
    cut sep keep (c :: cs) = cut sep keep cs := by
  simp [cut, inner, dropped]

theorem cut_congr {xs ys : List α} (same : cut sep keep xs = cut sep keep ys) (c : α) :
    cut sep keep (c :: xs) = cut sep keep (c :: ys) := by
  simp only [cut, same]

theorem words_sep {c : α} (ends : sep c = true) (cs : List α) :
    words sep keep (c :: cs) = words sep keep cs := by
  rw [words, cut_sep ends]
  rfl

/-- Only the last separator of a run matters. -/
theorem cut_sep_sep {c : α} (ends : sep c = true) {cs : List α} (more : cs.head?.any sep = true) :
    cut sep keep (c :: cs) = cut sep keep cs := by
  cases cs with
  | nil => cases more
  | cons d ds =>
    have ends' : sep d = true := by simpa using more
    rw [cut_sep ends, cut_sep ends', words_sep ends']

theorem cut_replaceRuns {p : α → Bool} {r : α} (seps : ∀ c, p c = true → sep c = true)
    (sepr : sep r = true) (l : List α) : cut sep keep (replaceRuns p r l) = cut sep keep l := by
  induction l with
  | nil => rfl
  | cons c cs ih =>
    rw [replaceRuns]
    by_cases run : p c = true
    · rw [if_pos run]
      split
      · rename_i more
        have more : cs.head?.any sep = true := by
          cases cs with
          | nil => cases more
          | cons e es => simpa using seps e (by simpa using more)
        rw [ih, cut_sep_sep (seps c run) more]
      · rw [cut_congr ih, cut_sep sepr, cut_sep (seps c run)]
    · rw [if_neg run]
      exact cut_congr ih c

theorem cut_filter {q : α → Bool} (noise : ∀ c, q c = false → sep c = false ∧ keep c = false)
    (l : List α) : cut sep keep (l.filter q) = cut sep keep l := by
  induction l with
  | nil => rfl
  | cons c cs ih =>
    by_cases kept : q c = true
    · rw [List.filter_cons_of_pos kept]
      exact cut_congr ih c
    · obtain ⟨inner, dropped⟩ := noise c (by simpa using kept)
      rw [List.filter_cons_of_neg kept, cut_drop inner dropped, ih]

theorem words_dropWhile {p : α → Bool} (seps : ∀ c, p c = true → sep c = true) (l : List α) :
    words sep keep (l.dropWhile p) = words sep keep l := by
  induction l with
  | nil => rfl
  | cons c cs ih =>
    by_cases run : p c = true
    · rw [List.dropWhile_cons_of_pos run, ih, words_sep (seps c run)]
    · rw [List.dropWhile_cons_of_neg run]

theorem cut_append_seps {t : List α} (seps : ∀ c ∈ t, sep c = true) (l : List α) :
    cut sep keep (l ++ t) = cut sep keep l := by
  induction l with
  | nil =>
    induction t with
    | nil => rfl
    | cons c cs ih =>
      have rest : cut sep keep cs = ([], []) := ih fun d mem => seps d (List.mem_cons_of_mem c mem)
      rw [List.nil_append, cut_sep (seps c List.mem_cons_self), words, rest]
      rfl
  | cons c cs ih => exact cut_congr ih c

theorem words_strip {p : α → Bool} (seps : ∀ c, p c = true → sep c = true) (l : List α) :
    words sep keep (strip p l) = words sep keep l := by
  have whole : strip p l ++ ((l.dropWhile p).reverse.takeWhile p).reverse = l.dropWhile p := by
    rw [strip, ← List.reverse_append, List.takeWhile_append_dropWhile, List.reverse_reverse]
  have back : words sep keep (l.dropWhile p) = words sep keep (strip p l) := by
    rw [← whole, words, cut_append_seps, words]
    intro c mem
    exact seps c (List.mem_takeWhile_imp (List.mem_reverse.mp mem))
  rw [← back, words_dropWhile seps]

theorem cut_kept (sep keep : α → Bool) (l : List α) :
    (∀ c ∈ (cut sep keep l).1, keep c = true) ∧
      ∀ w ∈ (cut sep keep l).2, ∀ c ∈ w, keep c = true := by
  induction l with
  | nil => simp [cut]
  | cons c cs ih =>
    by_cases ends : sep c = true
    · rw [cut_sep ends, words, push]
      refine ⟨by simp, fun w mem => ?_⟩
      split at mem
      · exact ih.2 w mem
      · rcases List.mem_cons.mp mem with rfl | mem
        · exact ih.1
        · exact ih.2 w mem
    · have inner : sep c = false := by simpa using ends
      by_cases kept : keep c = true
      · rw [cut_keep inner kept]
        exact ⟨List.forall_mem_cons.mpr ⟨kept, ih.1⟩, ih.2⟩
      · rw [cut_drop inner (by simpa using kept)]
        exact ih

end cut

/-! ## Joined -/

/-- The words with one `d` between them. -/
def join (d : α) (ws : List (List α)) : List α := [d].intercalate ws

theorem join_cons (d : α) (w : List α) (ws : List (List α)) :
    join d (w :: ws) = w ++ ws.flatMap fun v => d :: v := by
  induction ws generalizing w with
  | nil => simp [join, List.intercalate]
  | cons v vs ih =>
    have step : join d (w :: v :: vs) = w ++ d :: join d (v :: vs) := by
      simp [join, List.intercalate]
    rw [step, ih, List.flatMap_cons, List.cons_append]

/-- Words and single hyphens, with a word at either end. -/
structure Clean (d : α) (keep : α → Bool) (l : List α) : Prop where
  chars : ∀ c ∈ l, c = d ∨ keep c = true
  single : l.IsChain fun a b => ¬ (a = d ∧ b = d)
  first : l.head? ≠ some d
  last : l.getLast? ≠ some d

theorem clean_strip [DecidableEq α] {d : α} {keep : α → Bool} {l : List α}
    (chars : ∀ c ∈ l, c = d ∨ keep c = true) (single : l.IsChain fun a b => ¬ (a = d ∧ b = d)) :
    Clean d keep (strip (· = d) l) where
  chars c mem := chars c ((strip_within _ l).subset mem)
  single := single.infix (strip_within _ l)
  first hyphen := by
    have kept := List.head?_dropWhile_not (· = d) l
    obtain ⟨rest, whole⟩ := strip_front (· = d) l
    rw [← whole, List.head?_append, hyphen] at kept
    simp at kept
  last hyphen := by
    have kept := List.head?_dropWhile_not (· = d) (l.dropWhile (· = d)).reverse
    rw [strip, List.getLast?_reverse] at hyphen
    rw [hyphen] at kept
    simp at kept

/-- A clean text that is cut short is clean unless a hyphen is left at its end. -/
theorem Clean.take {d : α} {keep : α → Bool} {l : List α} (clean : Clean d keep l) {n : Nat}
    (last : (l.take (n + 1)).getLast? ≠ some d) : Clean d keep (l.take (n + 1)) where
  chars c mem := clean.chars c (List.mem_of_mem_take mem)
  single := clean.single.take _
  first := by
    rw [List.head?_take, if_neg (Nat.succ_ne_zero n)]
    exact clean.first
  last := last

theorem Clean.getLast?_take {d : α} {keep : α → Bool} {l : List α} (clean : Clean d keep l)
    (n : Nat) : (l.take (n + 1)).getLast? = some d ↔ l[n]? = some d := by
  have whole : (l.take (n + 1)).getLast? = l[n]?.or l.getLast? := by
    rw [List.getLast?_take, if_neg (Nat.succ_ne_zero n)]
    rfl
  rw [whole]
  cases found : l[n]? with
  | none => exact iff_of_false clean.last (by simp)
  | some c => rfl

/-- The separators do not belong to words, and `d` is one of them. -/
structure Alphabet (d : α) (sep keep : α → Bool) : Prop where
  hyphen : sep d = true
  inner : ∀ c, keep c = true → sep c = false

section join
variable {d : α} {sep keep : α → Bool} (alphabet : Alphabet d sep keep)
include alphabet

theorem Alphabet.keep_ne {c : α} (kept : keep c = true) : c ≠ d := by
  rintro rfl
  have inner := alphabet.inner c kept
  rw [alphabet.hyphen] at inner
  cases inner

theorem cut_clean {l : List α} (chars : ∀ c ∈ l, c = d ∨ keep c = true)
    (single : l.IsChain fun a b => ¬ (a = d ∧ b = d)) (last : l.getLast? ≠ some d) :
    (cut sep keep l).1 ++ ((cut sep keep l).2.flatMap fun v => d :: v) = l := by
  induction l with
  | nil => rfl
  | cons c cs ih =>
    have tail := ih (fun e mem => chars e (List.mem_cons_of_mem c mem)) single.tail
      fun stop => last (by cases cs with
        | nil => cases stop
        | cons e es => rwa [List.getLast?_cons_cons])
    rcases chars c List.mem_cons_self with rfl | kept
    · -- A hyphen has a word behind it.
      cases cs with
      | nil => exact absurd rfl last
      | cons e es =>
        have word : keep e = true := by
          rcases chars e (by simp) with rfl | kept
          · exact absurd ⟨rfl, rfl⟩ (List.isChain_cons_cons.mp single).1
          · exact kept
        have open' : cut sep keep (e :: es) = (e :: (cut sep keep es).1, (cut sep keep es).2) :=
          cut_keep (alphabet.inner e word) word es
        rw [cut_sep alphabet.hyphen, words]
        rw [open'] at tail ⊢
        simpa [push] using tail
    · rw [cut_keep (alphabet.inner c kept) kept, List.cons_append, tail]

/-- A clean text is its words, joined. -/
theorem join_words {l : List α} (clean : Clean d keep l) : join d (words sep keep l) = l := by
  have parts := cut_clean alphabet clean.chars clean.single clean.last
  cases l with
  | nil => rfl
  | cons c cs =>
    have kept : keep c = true :=
      (clean.chars c List.mem_cons_self).resolve_left fun same => clean.first (by rw [same]; rfl)
    rw [cut_keep (alphabet.inner c kept) kept] at parts
    rw [words, cut_keep (alphabet.inner c kept) kept]
    simpa [push, join_cons] using parts

/-- Words have no hyphens. -/
theorem mem_words_ne {l w : List α} (mem : w ∈ words sep keep l) : d ∉ w := by
  intro hyphen
  have kept := cut_kept sep keep l
  rw [words, push] at mem
  have inWord : keep d = true := by
    split at mem
    · exact kept.2 w mem d hyphen
    · rcases List.mem_cons.mp mem with rfl | mem
      · exact kept.1 d hyphen
      · exact kept.2 w mem d hyphen
  exact alphabet.keep_ne inWord rfl

end join

/-! ## The hyphens of a joined text -/

theorem getElem?_flatMap {d : α} {ws : List (List α)} (words : ∀ w ∈ ws, d ∉ w) (n : Nat) :
    (ws.flatMap fun v => d :: v)[n]? = some d ↔
      ∃ k < ws.length, ((ws.take k).flatMap fun v => d :: v).length = n := by
  induction ws generalizing n with
  | nil => simp
  | cons w ws ih =>
    have later := ih (fun v mem => words v (List.mem_cons_of_mem w mem))
    have longer (k : Nat) : (((w :: ws).take (k + 1)).flatMap fun v => d :: v).length =
        w.length + 1 + ((ws.take k).flatMap fun v => d :: v).length := by
      rw [List.take_succ_cons, List.flatMap_cons, List.length_append, List.length_cons]
    have front : (∃ k < (w :: ws).length, (((w :: ws).take k).flatMap fun v => d :: v).length = n) ↔
        n = 0 ∨ ∃ k < ws.length,
          w.length + 1 + ((ws.take k).flatMap fun v => d :: v).length = n := by
      constructor
      · rintro ⟨k, less, length⟩
        cases k with
        | zero => exact .inl length.symm
        | succ k => exact .inr ⟨k, Nat.lt_of_succ_lt_succ less, (longer k).symm.trans length⟩
      · rintro (rfl | ⟨k, less, length⟩)
        · exact ⟨0, Nat.succ_pos _, rfl⟩
        · exact ⟨k + 1, Nat.succ_lt_succ less, (longer k).trans length⟩
    rw [front, List.flatMap_cons, List.cons_append]
    cases n with
    | zero => simp
    | succ n =>
      rw [List.getElem?_cons_succ]
      by_cases inside : n < w.length
      · rw [List.getElem?_append_left inside]
        constructor
        · intro hyphen
          exact absurd (List.mem_of_getElem? hyphen) (words w List.mem_cons_self)
        · rintro (zero | ⟨k, -, length⟩) <;> omega
      · rw [List.getElem?_append_right (by omega), later]
        constructor
        · rintro ⟨k, less, length⟩
          exact .inr ⟨k, less, by omega⟩
        · rintro (zero | ⟨k, less, length⟩)
          · cases zero
          · exact ⟨k, less, by omega⟩

/-- The `n`-th character is a hyphen if and only if some first words, but not all,
fill the places before it. -/
theorem getElem?_join {d : α} {ws : List (List α)} (words : ∀ w ∈ ws, d ∉ w) (n : Nat) :
    (join d ws)[n]? = some d ↔
      ∃ k, 0 < k ∧ k < ws.length ∧ (join d (ws.take k)).length = n := by
  cases ws with
  | nil => simp [join, List.intercalate]
  | cons w ws =>
    have later := getElem?_flatMap (d := d) fun v mem => words v (List.mem_cons_of_mem w mem)
    have front : (∃ k, 0 < k ∧ k < (w :: ws).length ∧ (join d ((w :: ws).take k)).length = n) ↔
        ∃ k < ws.length, w.length + ((ws.take k).flatMap fun v => d :: v).length = n := by
      constructor
      · rintro ⟨k, pos, less, length⟩
        cases k with
        | zero => cases pos
        | succ k =>
          rw [List.take_succ_cons, join_cons, List.length_append] at length
          exact ⟨k, Nat.lt_of_succ_lt_succ less, length⟩
      · rintro ⟨k, less, length⟩
        refine ⟨k + 1, Nat.succ_pos k, Nat.succ_lt_succ less, ?_⟩
        rw [List.take_succ_cons, join_cons, List.length_append, length]
    rw [front, join_cons]
    by_cases inside : n < w.length
    · rw [List.getElem?_append_left inside]
      constructor
      · intro hyphen
        exact absurd (List.mem_of_getElem? hyphen) (words w List.mem_cons_self)
      · rintro ⟨k, -, length⟩
        omega
    · rw [List.getElem?_append_right (by omega), later]
      constructor
      · rintro ⟨k, less, length⟩
        exact ⟨k, less, by omega⟩
      · rintro ⟨k, less, length⟩
        exact ⟨k, less, by omega⟩

end Dormitory.Words
