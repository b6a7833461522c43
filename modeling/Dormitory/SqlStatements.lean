import Dormitory.Interceptors
import Dormitory.Scan
import Dormitory.Unicode
import Dormitory.Words

/-!
# The statements of an SQL script

`apply-rls` takes the script of the row-level security policies apart, since a
prepared statement holds one command only. A semicolon ends a statement unless it
is in a comment, a string, a quoted identifier or a dollar-quoted body.
-/

namespace Dormitory.ApplyRls
open Scan

/-! ## The splitter -/

/-- `[A-Za-z0-9_]`. -/
def tagChar (c : Char) : Bool := c.isAlphanum || c = '_'

/-- `[A-Za-z_]`. -/
def tagStart (c : Char) : Bool := c.isAlpha || c = '_'

/-- `/^\$([A-Za-z_][A-Za-z0-9_]*)?\$/`. -/
def dollarTag? : List Char → Option (List Char)
  | [] => none
  | ch :: rest =>
    let name := rest.takeWhile tagChar
    if ch = '$' ∧ (rest.dropWhile tagChar).head? = some '$' ∧ name.head?.all tagStart then
      some ('$' :: (name ++ ['$']))
    else none

/-- What one turn of the loop appends to `current`, and what is left. -/
def piece : List Char → List Char × List Char
  | [] => ([], [])
  | ch :: rest =>
    let next := rest.head?
    if ch = '-' ∧ next = some '-' then
      (ch :: rest.takeWhile (· ≠ '\n'), rest.dropWhile (· ≠ '\n'))
    else if ch = '/' ∧ next = some '*' then
      let body := through ['*', '/'] rest.tail
      (ch :: '*' :: body.1, body.2)
    else if ch = '\'' then
      let body := quoted '\'' rest
      (ch :: body.1, body.2)
    else if ch = '"' then
      let body := through ['"'] rest
      (ch :: body.1, body.2)
    else match dollarTag? (ch :: rest) with
      | some tag =>
        let body := through tag ((ch :: rest).drop tag.length)
        (tag ++ body.1, body.2)
      | none => ([ch], rest)

/-- `statements.push(current.trim())`, unless that is empty. -/
def push (statements : List (List Char)) (current : List Char) : List (List Char) :=
  let trimmed := AuditLogInterceptor.trim current
  if trimmed.isEmpty then statements else statements ++ [trimmed]

/-! ## The lexical rules -/

/-- `$tag$`. -/
def IsTag (tag : List Char) : Prop :=
  ∃ name : List Char, tag = '$' :: (name ++ ['$']) ∧
    (∀ c ∈ name, tagChar c) ∧ ∀ c ∈ name.head?, tagStart c

/-- `text` is one lexical element of a script when `after` comes next. A comment, a
string or a body that is not closed takes the rest of the script. -/
inductive Piece : List Char → List Char → Prop
  | plain {c after} (other : c ∉ [';', '\'', '"'])
      (noComment : ¬(c = '-' ∧ after.head? = some '-') ∧ ¬(c = '/' ∧ after.head? = some '*'))
      (noTag : ∀ tag, IsTag tag → ¬ tag <+: c :: after) : Piece [c] after
  | lineComment {body after} (line : '\n' ∉ body) (ends : ∀ c ∈ after.head?, c = '\n') :
      Piece ('-' :: '-' :: body) after
  | blockComment {body after} (closes : Closes ['*', '/'] body) : Piece ('/' :: '*' :: body) after
  | openBlock {body} (missing : ¬ ['*', '/'] <:+: body) : Piece ('/' :: '*' :: body) []
  | string {body after} (ends : after.head? ≠ some '\'') :
      Piece ('\'' :: (escape '\'' body ++ ['\''])) after
  | openString (body) : Piece ('\'' :: escape '\'' body) []
  | identifier {body after} (closes : Closes ['"'] body) : Piece ('"' :: body) after
  | openIdentifier {body} (missing : ¬ ['"'] <:+: body) : Piece ('"' :: body) []
  | dollar {tag body after} (quotes : IsTag tag) (closes : Closes tag body) :
      Piece (tag ++ body) after
  | openDollar {tag body} (quotes : IsTag tag) (missing : ¬ tag <:+: body) : Piece (tag ++ body) []

/-- A sequence of lexical elements without a semicolon. -/
inductive Run : List Char → List Char → Prop
  | nil {after} : Run [] after
  | cons {text more after} (first : Piece text (more ++ after)) (rest : Run more after) :
      Run (text ++ more) after

/-- The script is the segments, with one semicolon between each two. -/
inductive Script : List (List Char) → List Char → Prop
  | last {segment} (run : Run segment []) : Script [segment] segment
  | next {segment segments rest} (run : Run segment (';' :: rest)) (more : Script segments rest) :
      Script (segment :: segments) (segment ++ ';' :: rest)

/-! ## One element -/

section piece
variable {text after tag : List Char}

theorem isTag_nonempty (quotes : IsTag tag) : tag ≠ [] := by
  obtain ⟨name, rfl, -⟩ := quotes
  exact List.cons_ne_nil _ _

theorem IsTag.noSemicolon (quotes : IsTag tag) : ';' ∉ tag := by
  obtain ⟨name, rfl, word, -⟩ := quotes
  intro here
  rcases List.mem_cons.mp here with same | here
  · cases same
  rcases List.mem_append.mp here with here | here
  · exact absurd (word _ here) (by decide)
  · cases List.mem_singleton.mp here

theorem dollarTag?_eq_some {cs : List Char} :
    dollarTag? cs = some tag ↔ IsTag tag ∧ tag <+: cs := by
  cases cs with
  | nil =>
    refine iff_of_false (fun none => nomatch none) fun both => isTag_nonempty both.1 ?_
    exact List.prefix_nil.mp both.2
  | cons ch rest =>
    rw [dollarTag?, Option.ite_none_right_eq_some]
    constructor
    · rintro ⟨⟨rfl, closed, starts⟩, found⟩
      cases found
      refine ⟨⟨_, rfl, fun c hc => List.mem_takeWhile_imp hc, (Option.all_eq_true _ _).mp starts⟩,
        ?_⟩
      obtain ⟨more, behind⟩ := List.head?_eq_some_iff.mp closed
      refine ⟨more, congrArg ('$' :: ·) ?_⟩
      change rest.takeWhile tagChar ++ ['$'] ++ more = rest
      rw [List.append_assoc, List.singleton_append, ← behind, List.takeWhile_append_dropWhile]
    · rintro ⟨⟨name, rfl, word, starts⟩, more, same⟩
      obtain ⟨rfl, tail⟩ := List.cons.inj same
      obtain rfl : name ++ ['$'] ++ more = rest := tail
      have name_eq : ((name ++ ['$']) ++ more).takeWhile tagChar = name := by
        rw [List.append_assoc, List.takeWhile_append_of_pos word]
        simp [tagChar]
      have behind : ((name ++ ['$']) ++ more).dropWhile tagChar = '$' :: more := by
        rw [List.append_assoc, List.dropWhile_append_of_pos word]
        simp [tagChar]
      refine ⟨⟨rfl, ?_, ?_⟩, ?_⟩
      · exact congrArg List.head? behind
      · exact (Option.all_eq_true _ _).mpr (by rwa [name_eq])
      · exact congrArg (fun name => some ('$' :: (name ++ ['$']))) name_eq

theorem dollarTag?_eq_none {cs : List Char} :
    dollarTag? cs = none ↔ ∀ tag, IsTag tag → ¬ tag <+: cs := by
  rw [Option.eq_none_iff_forall_not_mem]
  exact forall_congr' fun tag => by simp only [Option.mem_def, dollarTag?_eq_some, not_and]

theorem piece_comment (rest : List Char) : piece ('-' :: '-' :: rest) =
    ('-' :: '-' :: rest.takeWhile (· ≠ '\n'), rest.dropWhile (· ≠ '\n')) := by
  simp [piece]

theorem piece_block (rest : List Char) : piece ('/' :: '*' :: rest) =
    ('/' :: '*' :: (through ['*', '/'] rest).1, (through ['*', '/'] rest).2) := by
  simp [piece]

theorem piece_string (rest : List Char) :
    piece ('\'' :: rest) = ('\'' :: (quoted '\'' rest).1, (quoted '\'' rest).2) := by
  simp [piece]

theorem piece_identifier (rest : List Char) :
    piece ('"' :: rest) = ('"' :: (through ['"'] rest).1, (through ['"'] rest).2) := by
  simp [piece]

theorem piece_dollar (quotes : IsTag tag) (rest : List Char) :
    piece (tag ++ rest) = (tag ++ (through tag rest).1, (through tag rest).2) := by
  have found : dollarTag? (tag ++ rest) = some tag :=
    dollarTag?_eq_some.mpr ⟨quotes, List.prefix_append tag rest⟩
  obtain ⟨name, rfl, -⟩ := quotes
  rw [List.cons_append] at found ⊢
  simp only [piece, found, Char.reduceEq, false_and, if_false, List.length_cons,
    List.drop_succ_cons, List.drop_left, List.cons_append]

theorem piece_plain {c : Char} {rest : List Char} (other : c ∉ ['\'', '"'])
    (noComment : ¬(c = '-' ∧ rest.head? = some '-') ∧ ¬(c = '/' ∧ rest.head? = some '*'))
    (noTag : dollarTag? (c :: rest) = none) : piece (c :: rest) = ([c], rest) := by
  simp only [List.mem_cons, List.not_mem_nil, or_false, not_or] at other
  simp only [piece, noComment.1, noComment.2, other.1, other.2, noTag, if_false]

/-- **The scanner takes what the lexical rules say.** -/
theorem Piece.scanned (fits : Piece text after) : piece (text ++ after) = (text, after) := by
  cases fits with
  | plain other noComment noTag =>
    apply piece_plain (fun here => other (List.mem_cons_of_mem _ here)) noComment
    exact dollarTag?_eq_none.mpr noTag
  | lineComment line ends =>
    rename_i body
    have inside : ∀ c ∈ body, decide (c ≠ '\n') = true := by
      intro c hc
      exact decide_eq_true fun same => line (same ▸ hc)
    have stop : after.takeWhile (· ≠ '\n') = [] ∧ after.dropWhile (· ≠ '\n') = after := by
      cases after with
      | nil => exact ⟨rfl, rfl⟩
      | cons c after => simp [ends c rfl]
    rw [List.cons_append, List.cons_append, piece_comment, List.takeWhile_append_of_pos inside,
      List.dropWhile_append_of_pos inside, stop.1, stop.2, List.append_nil]
  | blockComment closes =>
    rw [List.cons_append, List.cons_append, piece_block, through_append (by simp) closes]
  | openBlock missing =>
    rw [List.append_nil, piece_block, through_open missing]
  | string ends =>
    rw [List.cons_append, List.append_assoc, List.singleton_append, piece_string,
      quoted_append ends]
  | openString body => rw [List.append_nil, piece_string, quoted_open]
  | identifier closes => rw [List.cons_append, piece_identifier, through_append (by simp) closes]
  | openIdentifier missing => rw [List.append_nil, piece_identifier, through_open missing]
  | dollar quotes closes =>
    rw [List.append_assoc, piece_dollar quotes, through_append (isTag_nonempty quotes) closes]
  | openDollar quotes missing =>
    rw [List.append_nil, piece_dollar quotes, through_open missing]

/-- Every script that does not start with a semicolon starts with an element. -/
theorem exists_piece {c : Char} (cs : List Char) (other : c ≠ ';') :
    ∃ text after, c :: cs = text ++ after ∧ text ≠ [] ∧ Piece text after := by
  by_cases comment : c = '-' ∧ cs.head? = some '-'
  · obtain ⟨rfl, next⟩ := comment
    obtain ⟨rest, rfl⟩ := List.head?_eq_some_iff.mp next
    refine ⟨'-' :: '-' :: rest.takeWhile (· ≠ '\n'), rest.dropWhile (· ≠ '\n'), ?_, by simp,
      .lineComment (fun here => ?_) fun d hd => ?_⟩
    · simp only [List.cons_append, List.takeWhile_append_dropWhile]
    · simpa using List.mem_takeWhile_imp here
    · have stops := List.head?_dropWhile_not (· ≠ '\n') rest
      rw [hd] at stops
      simpa using stops
  by_cases block : c = '/' ∧ cs.head? = some '*'
  · obtain ⟨rfl, next⟩ := block
    obtain ⟨rest, rfl⟩ := List.head?_eq_some_iff.mp next
    rcases through_cases (by simp : ['*', '/'] ≠ []) rest with ⟨body, after, rfl, closes⟩ | missing
    · exact ⟨_, after, rfl, by simp, .blockComment closes⟩
    · exact ⟨_, [], (List.append_nil _).symm, by simp, .openBlock missing⟩
  by_cases string : c = '\''
  · subst string
    rcases quoted_cases '\'' cs with ⟨body, after, rfl, ends⟩ | ⟨body, rfl⟩
    · exact ⟨'\'' :: (escape '\'' body ++ ['\'']), after, by simp, by simp, .string ends⟩
    · exact ⟨_, [], (List.append_nil _).symm, by simp, .openString body⟩
  by_cases identifier : c = '"'
  · subst identifier
    rcases through_cases (by simp : ['"'] ≠ []) cs with ⟨body, after, rfl, closes⟩ | missing
    · exact ⟨_, after, rfl, by simp, .identifier closes⟩
    · exact ⟨_, [], (List.append_nil _).symm, by simp, .openIdentifier missing⟩
  cases dollar : dollarTag? (c :: cs) with
  | some tag =>
    obtain ⟨quotes, rest, same⟩ := dollarTag?_eq_some.mp dollar
    have nonempty := isTag_nonempty quotes
    rcases through_cases nonempty rest with ⟨body, after, rfl, closes⟩ | missing
    · exact ⟨tag ++ body, after, by rw [← same, List.append_assoc], by simp [nonempty],
        .dollar quotes closes⟩
    · exact ⟨tag ++ rest, [], by rw [← same, List.append_nil], by simp [nonempty],
        .openDollar quotes missing⟩
  | none =>
    exact ⟨[c], cs, rfl, by simp, .plain (by simp [other, string, identifier]) ⟨comment, block⟩
      (dollarTag?_eq_none.mp dollar)⟩

theorem Piece.head (fits : Piece text after) : ∃ c more, text = c :: more ∧ c ≠ ';' := by
  cases fits with
  | plain other => exact ⟨_, _, rfl, fun same => other (by simp [same])⟩
  | lineComment | blockComment | openBlock | string | openString | identifier | openIdentifier =>
    exact ⟨_, _, rfl, by decide⟩
  | dollar quotes | openDollar quotes =>
    obtain ⟨name, rfl, -⟩ := quotes
    exact ⟨_, _, rfl, by decide⟩

end piece

/-! ## The loop -/

theorem piece_shorter {c : Char} {rest : List Char} (other : c ≠ ';') :
    (piece (c :: rest)).2.length < (c :: rest).length := by
  obtain ⟨text, after, same, nonempty, fits⟩ := exists_piece rest other
  have positive := List.length_pos_of_ne_nil nonempty
  rw [same, fits.scanned, List.length_append]
  exact Nat.lt_add_of_pos_left positive

/-- The loop, with `statements` and `current`. -/
def splitLoop (statements : List (List Char)) (current : List Char) :
    List Char → List (List Char)
  | [] => push statements current
  | ch :: rest =>
    if _ : ch = ';' then splitLoop (push statements current) [] rest
    else splitLoop statements (current ++ (piece (ch :: rest)).1) (piece (ch :: rest)).2
termination_by cs => cs.length
decreasing_by
  · exact Nat.lt_succ_self _
  · exact piece_shorter ‹_›

def splitSqlStatements (sql : String) : List String :=
  (splitLoop [] [] sql.toList).map String.ofList

/-- The trimmed segments that are not empty. -/
def statementsOf (segments : List (List Char)) : List (List Char) :=
  (segments.map AuditLogInterceptor.trim).filter fun s => !s.isEmpty

section loop
variable {text text' after after' segment current : List Char}
  {statements segments segments' : List (List Char)} {sql : List Char}

theorem splitLoop_nil : splitLoop statements current [] = push statements current := by
  rw [splitLoop]

theorem splitLoop_semicolon (rest : List Char) :
    splitLoop statements current (';' :: rest) = splitLoop (push statements current) [] rest := by
  rw [splitLoop, dif_pos rfl]

theorem splitLoop_piece (fits : Piece text after) :
    splitLoop statements current (text ++ after) =
      splitLoop statements (current ++ text) after := by
  obtain ⟨c, more, same, other⟩ := fits.head
  have scanned := fits.scanned
  rw [same, List.cons_append] at scanned ⊢
  rw [splitLoop, dif_neg other, scanned]

/-- A segment goes to `current`. -/
theorem Run.collected (run : Run text after) :
    splitLoop statements current (text ++ after) =
      splitLoop statements (current ++ text) after := by
  induction run generalizing current with
  | nil => rw [List.nil_append, List.append_nil]
  | cons first rest ih =>
    rw [List.append_assoc, splitLoop_piece first, ih, List.append_assoc]

theorem push_eq : push statements current = statements ++ statementsOf [current] := by
  rw [push, statementsOf, List.map_singleton]
  cases empty : (AuditLogInterceptor.trim current).isEmpty <;> simp [empty]

theorem statementsOf_cons (segment : List Char) (segments : List (List Char)) :
    statementsOf (segment :: segments) = statementsOf [segment] ++ statementsOf segments := by
  rw [statementsOf, List.map_cons, ← List.singleton_append, List.filter_append]
  rfl

theorem Script.split (script : Script segments sql) :
    splitLoop statements [] sql = statements ++ statementsOf segments := by
  induction script generalizing statements with
  | @last segment run =>
    have collected : splitLoop statements [] (segment ++ []) =
        splitLoop statements ([] ++ segment) [] := run.collected
    rw [List.append_nil, List.nil_append] at collected
    rw [collected, splitLoop_nil, push_eq]
  | @next segment segments rest run more ih =>
    rw [run.collected, List.nil_append, splitLoop_semicolon, ih, push_eq,
      statementsOf_cons segment segments, List.append_assoc]

/-! ## Every script has one reading -/

theorem exists_run (sql : List Char) :
    ∃ text after, sql = text ++ after ∧ Run text after ∧ ∀ c ∈ after.head?, c = ';' := by
  induction length : sql.length using Nat.strong_induction_on generalizing sql with
  | _ n ih =>
    cases sql with
    | nil => exact ⟨[], [], rfl, .nil, nofun⟩
    | cons c cs =>
      by_cases semicolon : c = ';'
      · exact ⟨[], c :: cs, rfl, .nil, fun d hd => Option.some.inj hd ▸ semicolon⟩
      obtain ⟨text, rest, same, nonempty, fits⟩ := exists_piece cs semicolon
      have positive := List.length_pos_of_ne_nil nonempty
      have shorter : rest.length < n := by
        rw [← length, same, List.length_append]
        omega
      obtain ⟨more, after, rfl, run, ends⟩ := ih _ shorter rest rfl
      exact ⟨text ++ more, after, by rw [same, List.append_assoc], .cons fits run, ends⟩

theorem exists_script (sql : List Char) : ∃ segments, Script segments sql := by
  induction length : sql.length using Nat.strong_induction_on generalizing sql with
  | _ n ih =>
    obtain ⟨text, after, rfl, run, ends⟩ := exists_run sql
    cases after with
    | nil => exact ⟨[text], by rw [List.append_nil]; exact .last run⟩
    | cons c rest =>
      obtain rfl := ends c rfl
      have shorter : rest.length < n := by
        rw [← length, List.length_append, List.length_cons]
        omega
      obtain ⟨segments, more⟩ := ih _ shorter rest rfl
      exact ⟨text :: segments, .next run more⟩

theorem Run.unique (run : Run text after) (run' : Run text' after')
    (same : text ++ after = text' ++ after') (ends : ∀ c ∈ after.head?, c = ';')
    (ends' : ∀ c ∈ after'.head?, c = ';') : text = text' := by
  induction run generalizing text' with
  | nil =>
    cases run' with
    | nil => rfl
    | cons first rest =>
      obtain ⟨c, more, rfl, other⟩ := first.head
      rw [List.nil_append] at same
      subst same
      exact absurd (ends c rfl) other
  | cons first rest ih =>
    cases run' with
    | nil =>
      obtain ⟨c, more, rfl, other⟩ := first.head
      rw [List.nil_append] at same
      subst same
      exact absurd (ends' c rfl) other
    | cons first' rest' =>
      have scanned := first.scanned
      rw [← List.append_assoc, same, List.append_assoc, first'.scanned] at scanned
      obtain ⟨rfl, behind⟩ := Prod.mk.inj scanned
      rw [ih rest' behind.symm ends]

theorem Script.unique {sql' : List Char} (script : Script segments sql)
    (script' : Script segments' sql') (whole : sql = sql') : segments = segments' := by
  have semicolon (rest : List Char) : ∀ c ∈ (';' :: rest).head?, c = ';' :=
    fun c hc => (Option.some.inj hc).symm
  induction script generalizing segments' sql' with
  | @last segment run =>
    cases script' with
    | last run' => rw [whole]
    | @next segment' segments' rest run' more' =>
      have same := run.unique run' ((List.append_nil _).trans whole) nofun (semicolon rest)
      simp [same] at whole
  | @next segment segments rest run more ih =>
    cases script' with
    | last run' =>
      have same := run.unique run' (whole.trans (List.append_nil _).symm) (semicolon rest) nofun
      simp [← same] at whole
    | @next segment' segments' rest' run' more' =>
      obtain rfl := run.unique run' whole (semicolon rest) (semicolon rest')
      obtain ⟨-, rfl⟩ := List.cons.inj (List.append_cancel_left whole)
      rw [ih more' rfl]

end loop

/-! ## Trimming -/

section trim
open AuditLogInterceptor
variable {text after tail : List Char} {w : Char}

/-- An element stays one where the script ends earlier. -/
theorem Piece.shorter (fits : Piece text (after ++ tail)) : Piece text after := by
  have head : ∀ c ∈ after.head?, c ∈ (after ++ tail).head? := by
    intro c hc
    rw [List.head?_append, Option.mem_def.mp hc]
    rfl
  generalize whole : after ++ tail = behind at fits head
  cases fits with
  | plain other noComment noTag =>
    refine .plain other ⟨fun both => noComment.1 ⟨both.1, head _ both.2⟩,
      fun both => noComment.2 ⟨both.1, head _ both.2⟩⟩ fun tag quotes here => noTag tag quotes ?_
    rw [← whole]
    exact here.trans (List.prefix_append (_ :: after) tail)
  | lineComment line ends => exact .lineComment line fun c hc => ends c (head c hc)
  | blockComment closes => exact .blockComment closes
  | openBlock missing =>
    rw [(List.append_eq_nil_iff.mp whole).1]
    exact .openBlock missing
  | string ends => exact .string fun same => ends (head _ same)
  | openString body =>
    rw [(List.append_eq_nil_iff.mp whole).1]
    exact .openString body
  | identifier closes => exact .identifier closes
  | openIdentifier missing =>
    rw [(List.append_eq_nil_iff.mp whole).1]
    exact .openIdentifier missing
  | dollar quotes closes => exact .dollar quotes closes
  | openDollar quotes missing =>
    rw [(List.append_eq_nil_iff.mp whole).1]
    exact .openDollar quotes missing

theorem Run.shorter (run : Run text (after ++ tail)) : Run text after := by
  generalize whole : after ++ tail = behind at run
  induction run with
  | nil => exact .nil
  | cons first rest ih =>
    subst whole
    rw [← List.append_assoc] at first
    exact .cons first.shorter (ih rfl)

/-- White space is an element of its own. -/
theorem Piece.space (fits : Piece (w :: text) after) (space : isSpace w) : text = [] := by
  generalize whole : w :: text = element at fits
  cases fits with
  | plain => exact (List.cons.inj whole).2
  | lineComment | blockComment | openBlock | string | openString | identifier | openIdentifier =>
    rw [(List.cons.inj whole).1] at space
    exact absurd space (by decide)
  | dollar quotes | openDollar quotes =>
    obtain ⟨name, rfl, -⟩ := quotes
    rw [(List.cons.inj whole).1] at space
    exact absurd space (by decide)

theorem Run.space (run : Run (w :: text) after) (space : isSpace w) : Run text after := by
  generalize whole : w :: text = elements at run
  cases run with
  | nil => cases whole
  | cons first rest =>
    obtain ⟨c, more, rfl, -⟩ := first.head
    obtain ⟨rfl, rfl⟩ := List.cons.inj whole
    rw [first.space space]
    exact rest

theorem Run.dropWhile (run : Run text after) : Run (text.dropWhile isSpace) after := by
  induction text with
  | nil => exact run
  | cons c text ih =>
    by_cases space : isSpace c = true
    · rw [List.dropWhile_cons_of_pos space]
      exact ih (run.space space)
    · rw [List.dropWhile_cons_of_neg space]
      exact run

theorem concat_eq_append {l body : List Char} (same : text ++ [w] = l ++ body) :
    (∃ body', body = body' ++ [w] ∧ text = l ++ body') ∨ body = [] ∧ l = text ++ [w] := by
  rcases List.eq_nil_or_concat body with rfl | ⟨body', c, rfl⟩
  · exact .inr ⟨rfl, by rw [same, List.append_nil]⟩
  · rw [List.concat_eq_append, ← List.append_assoc] at same
    obtain ⟨front, last⟩ := List.append_inj' same rfl
    obtain rfl := List.singleton_inj.mp last
    exact .inl ⟨body', List.concat_eq_append, front⟩

theorem concat_ne {l : List Char} {c : Char} (space : isSpace w) (other : isSpace c = false) :
    text ++ [w] ≠ l ++ [c] := by
  intro same
  obtain rfl := List.singleton_inj.mp (List.append_inj' same rfl).2
  rw [space] at other
  cases other

/-- A closed body ends as its stop does. -/
theorem Closes.last (stop : List Char) {body : List Char} {c : Char}
    (closes : Closes (stop ++ [c]) body) :
    ∃ front, body = front ++ [c] := by
  obtain ⟨front, rfl⟩ := closes.1
  exact ⟨front ++ stop, (List.append_assoc _ _ _).symm⟩

/-- White space at the end of the script is an element, or in one that is not closed. -/
theorem Piece.chop (fits : Piece (text ++ [w]) []) (space : isSpace w) :
    text = [] ∨ Piece text [] := by
  generalize whole : text ++ [w] = element at fits
  cases fits with
  | @plain c =>
    rcases concat_eq_append (l := []) whole with ⟨body, same, rfl⟩ | ⟨same, -⟩
    · exact .inl (List.append_eq_singleton_iff.mp same.symm |>.resolve_right fun both =>
        List.cons_ne_nil _ _ both.2).1
    · cases same
  | @lineComment body after line =>
    rcases concat_eq_append (l := ['-', '-']) whole with ⟨body', rfl, rfl⟩ | ⟨rfl, -⟩
    · exact .inr (.lineComment (fun here => line (List.mem_append_left _ here)) nofun)
    · exact absurd whole (concat_ne (l := ['-']) space (by decide))
  | @blockComment body after closes =>
    obtain ⟨front, rfl⟩ := Closes.last ['*'] closes
    exact absurd whole (concat_ne (l := '/' :: '*' :: front) space (by decide))
  | @openBlock body missing =>
    rcases concat_eq_append (l := ['/', '*']) whole with ⟨body', rfl, rfl⟩ | ⟨rfl, -⟩
    · exact .inr (.openBlock fun here => missing (here.trans (List.infix_append' [] _ _)))
    · exact absurd whole (concat_ne (l := ['/']) space (by decide))
  | @string body after ends =>
    exact absurd whole (concat_ne (l := '\'' :: escape '\'' body) space (by decide))
  | openString body =>
    rcases List.eq_nil_or_concat body with rfl | ⟨body', c, rfl⟩
    · exact absurd whole (concat_ne (l := []) space (by decide))
    rw [List.concat_eq_append, escape, List.flatMap_append, List.flatMap_singleton] at whole
    split at whole
    · exact absurd (whole.trans (by simp [escape]))
        (concat_ne (l := '\'' :: (escape '\'' body' ++ ['\''])) (c := '\'') space (by decide))
    · rw [← List.cons_append] at whole
      obtain ⟨rfl, -⟩ := List.append_inj' whole rfl
      exact .inr (.openString body')
  | @identifier body after closes =>
    obtain ⟨front, rfl⟩ := Closes.last [] closes
    exact absurd whole (concat_ne (l := '"' :: front) space (by decide))
  | @openIdentifier body missing =>
    rcases concat_eq_append (l := ['"']) whole with ⟨body', rfl, rfl⟩ | ⟨rfl, -⟩
    · exact .inr (.openIdentifier fun here => missing (here.trans (List.infix_append' [] _ _)))
    · exact absurd whole (concat_ne (l := []) space (by decide))
  | @dollar tag body after quotes closes =>
    obtain ⟨name, rfl, -⟩ := quotes
    obtain ⟨front, rfl⟩ := Closes.last ('$' :: name) closes
    rw [← List.append_assoc] at whole
    exact absurd whole (concat_ne space (by decide))
  | @openDollar tag body quotes missing =>
    rcases concat_eq_append whole with ⟨body', rfl, rfl⟩ | ⟨rfl, same⟩
    · exact .inr (.openDollar quotes fun here => missing (here.trans (List.infix_append' [] _ _)))
    · obtain ⟨name, rfl, -⟩ := quotes
      exact absurd same.symm (concat_ne (l := '$' :: name) space (by decide))

theorem Run.concat_space (run : Run (text ++ [w]) []) (space : isSpace w) : Run text [] := by
  generalize whole : text ++ [w] = elements at run
  generalize ends : ([] : List Char) = after at run
  induction run generalizing text with
  | nil => simp at whole
  | @cons element more after first rest ih =>
    subst ends
    rcases concat_eq_append whole with ⟨more', rfl, rfl⟩ | ⟨rfl, rfl⟩
    · rw [List.append_nil] at first
      have first' : Piece element (more' ++ []) := by
        rw [List.append_nil]
        exact first.shorter
      exact .cons first' (ih rfl rfl)
    · rcases first.chop space with rfl | fits
      · exact .nil
      · rw [← List.append_nil text]
        exact .cons fits .nil

theorem Run.dropSpaces {l : List Char} (run : Run l.reverse []) :
    Run (l.dropWhile isSpace).reverse [] := by
  induction l with
  | nil => exact .nil
  | cons c l ih =>
    by_cases space : isSpace c = true
    · rw [List.dropWhile_cons_of_pos space]
      rw [List.reverse_cons] at run
      exact ih (run.concat_space space)
    · rw [List.dropWhile_cons_of_neg space]
      exact run

/-- **A trimmed segment is one.** -/
theorem Run.trim (run : Run text after) : Run (trim text) [] := by
  rw [← List.nil_append after] at run
  have front : Run (text.dropWhile isSpace) [] := run.shorter.dropWhile
  rw [← List.reverse_reverse (text.dropWhile isSpace)] at front
  exact front.dropSpaces

theorem trim_trim (text : List Char) : AuditLogInterceptor.trim (AuditLogInterceptor.trim text) =
    AuditLogInterceptor.trim text := Words.strip_strip isSpace text

end trim

/-! ## Scripts one after the other -/

section append
variable {text more after segment : List Char} {segments segments' : List (List Char)}
  {a b sql : List Char}

theorem Script.run (script : Script segments sql) (mem : segment ∈ segments) :
    ∃ after, Run segment after := by
  induction script with
  | last run =>
    obtain rfl := List.mem_singleton.mp mem
    exact ⟨_, run⟩
  | next run more ih =>
    rcases List.mem_cons.mp mem with rfl | mem
    · exact ⟨_, run⟩
    · exact ih mem

/-- What comes behind a semicolon does not matter to what is before it. -/
theorem Piece.longer (rest : List Char) (fits : Piece text (more ++ [';'])) :
    Piece text (more ++ ';' :: rest) := by
  have head : (more ++ [';']).head? = (more ++ ';' :: rest).head? := by
    cases more <;> rfl
  have open' : more ++ [';'] ≠ [] := by simp
  generalize whole : more ++ [';'] = behind at fits head open'
  cases fits with
  | @plain c after other noComment noTag =>
    rw [head] at noComment
    refine .plain other noComment fun tag quotes here => noTag tag quotes ?_
    have short : tag.length ≤ (c :: more).length := by
      by_contra long
      have within : c :: more ++ [';'] <+: tag := by
        refine List.prefix_of_prefix_length_le ⟨rest, ?_⟩ here ?_
        · simp
        · rw [List.length_append]
          exact not_le.mp long
      exact quotes.noSemicolon (within.subset (by simp))
    exact whole ▸ (List.prefix_of_prefix_length_le here
      (List.prefix_append (c :: more) (';' :: rest)) short).trans
        (List.prefix_append (c :: more) [';'])
  | lineComment line ends => exact .lineComment line (head ▸ ends)
  | blockComment closes => exact .blockComment closes
  | string ends => exact .string (head ▸ ends)
  | identifier closes => exact .identifier closes
  | dollar quotes closes => exact .dollar quotes closes
  | openBlock | openString | openIdentifier | openDollar => exact absurd rfl open'

theorem Run.longer (run : Run text [';']) (rest : List Char) : Run text (';' :: rest) := by
  generalize ends : [';'] = after at run
  induction run with
  | nil => exact .nil
  | cons first _ ih =>
    subst ends
    exact .cons (first.longer rest) (ih rfl)

theorem Run.behind {rest rest' : List Char} (run : Run text (';' :: rest)) :
    Run text (';' :: rest') := by
  have short : Run text [';'] := run.shorter
  exact short.longer rest'

/-- The script ends outside comments and quotes. -/
def Closed (sql : List Char) : Prop :=
  ∃ segments segment, Script (segments ++ [segment]) sql ∧ Run segment [';']

theorem Script.append (script : Script (segments ++ [segment]) a) (closed : Run segment [';'])
    (script' : Script segments' b) : Script (segments ++ segment :: segments') (a ++ ';' :: b) := by
  induction segments generalizing a with
  | nil =>
    cases script with
    | last run => exact .next (closed.longer b) script'
    | next run more => cases more
  | cons first segments ih =>
    generalize same : first :: segments ++ [segment] = all at script
    cases script with
    | last run => simp at same
    | @next segment₁ segments₁ rest run more =>
      obtain ⟨rfl, rfl⟩ := List.cons.inj same
      rw [List.append_assoc, List.cons_append, List.cons_append]
      exact .next run.behind (ih more)

theorem statementsOf_append :
    statementsOf (segments ++ segments') = statementsOf segments ++ statementsOf segments' := by
  rw [statementsOf, List.map_append, List.filter_append]
  rfl

end append

/-- **The splitter reads the script by its lexical rules.** Every script is segments
between semicolons in exactly one way, and what the splitter returns are those
segments, trimmed, without the empty ones. -/
theorem splitSqlStatements_script (sql : String) :
    ∃ segments, Script segments sql.toList ∧
      (∀ segments', Script segments' sql.toList → segments' = segments) ∧
      splitSqlStatements sql = (statementsOf segments).map String.ofList := by
  obtain ⟨segments, script⟩ := exists_script sql.toList
  refine ⟨segments, script, fun segments' script' => script'.unique script rfl, ?_⟩
  rw [splitSqlStatements, script.split, List.nil_append]

namespace Demo

/-- A body with a semicolon. -/
theorem body_run (after : List Char) : Run "$$;$$".toList after := by
  have quotes : IsTag ['$', '$'] := ⟨[], rfl, nofun, nofun⟩
  have closes : Scan.Closes ['$', '$'] [';', '$', '$'] := ⟨by decide, by decide⟩
  have body : Piece "$$;$$".toList ([] ++ after) := .dollar quotes closes
  exact .cons body .nil

theorem word_run : Run ['a'] [';'] := by
  have letter : Piece ['a'] ([] ++ [';']) := by
    refine .plain (by decide) (by decide) ?_
    rintro tag ⟨name, rfl, -⟩ ⟨rest, same⟩
    cases (List.cons.inj same).1
  exact .cons letter .nil

theorem body_splits : "$$;$$" ∈ splitSqlStatements "a;$$;$$;" := by
  have body : Script (["$$;$$".toList] ++ [[]]) "$$;$$;".toList :=
    .next (body_run _) (.last .nil)
  have script : Script (['a'] :: ["$$;$$".toList] ++ [[]]) "a;$$;$$;".toList :=
    .next (word_run.longer "$$;$$;".toList) body
  rw [splitSqlStatements, script.split]
  decide

end Demo

/-- **Each statement is a single one.** Splitting it again leaves it as it is. -/
theorem splitSqlStatements_single (sql : String) :
    ∀ s ∈ splitSqlStatements sql, splitSqlStatements s = [s] := by
  intro s hs
  obtain ⟨segments, script⟩ := exists_script sql.toList
  rw [splitSqlStatements, script.split, List.nil_append] at hs
  obtain ⟨text, mem, rfl⟩ := List.mem_map.mp hs
  obtain ⟨mem, nonempty⟩ := List.mem_filter.mp mem
  obtain ⟨segment, stored, rfl⟩ := List.mem_map.mp mem
  obtain ⟨after, run⟩ := script.run stored
  have alone : Script [AuditLogInterceptor.trim segment] (AuditLogInterceptor.trim segment) :=
    .last run.trim
  rw [splitSqlStatements, String.toList_ofList, alone.split, List.nil_append, statementsOf,
    List.map_singleton, trim_trim,
    List.filter_cons_of_pos (p := fun s : List Char => !s.isEmpty) nonempty, List.filter_nil,
    List.map_singleton]

theorem splitSqlStatements_single_body : splitSqlStatements "$$;$$" = ["$$;$$"] :=
  splitSqlStatements_single "a;$$;$$;" "$$;$$" Demo.body_splits

theorem splitSqlStatements_append {a : String} (b : String) (closed : Closed a.toList) :
    splitSqlStatements (a ++ ";" ++ b) = splitSqlStatements a ++ splitSqlStatements b := by
  obtain ⟨segments, segment, script, closed⟩ := closed
  obtain ⟨segments', script'⟩ := exists_script b.toList
  have both := script.append closed script'
  have text : (a ++ ";" ++ b).toList = a.toList ++ ';' :: b.toList := by simp
  rw [splitSqlStatements, text, both.split, splitSqlStatements, script.split, splitSqlStatements,
    script'.split, ← List.map_append, ← List.singleton_append, ← List.append_assoc]
  simp only [List.nil_append, statementsOf_append]

/-- **Round trip.** Single statements that end outside comments and quotes come back
from the script that has them with a semicolon behind each. -/
theorem splitSqlStatements_join (ss : List String)
    (single : ∀ s ∈ ss, splitSqlStatements s = [s] ∧ Closed s.toList) :
    splitSqlStatements (String.join (ss.map (· ++ ";"))) = ss := by
  induction ss with
  | nil =>
    change (splitLoop [] [] []).map String.ofList = []
    rw [splitLoop_nil]
    rfl
  | cons s ss ih =>
    obtain ⟨alone, closed⟩ := single s List.mem_cons_self
    rw [List.map_cons, String.join_cons, splitSqlStatements_append _ closed, alone,
      ih fun s hs => single s (List.mem_cons_of_mem _ hs)]
    rfl

open ApplyRls.Demo in
theorem splitSqlStatements_join_two : splitSqlStatements "a;$$;$$;" = ["a", "$$;$$"] := by
  refine splitSqlStatements_join ["a", "$$;$$"] ?_
  have short : Run ['a'] [] := word_run.shorter
  have word : Script [['a']] "a".toList := .last short
  have body : Script ["$$;$$".toList] "$$;$$".toList := .last (body_run [])
  intro s hs
  rcases List.mem_cons.mp hs with rfl | hs
  · refine ⟨?_, [], _, word, word_run⟩
    rw [splitSqlStatements, word.split]
    decide
  · obtain rfl := List.mem_singleton.mp hs
    refine ⟨?_, [], _, body, body_run _⟩
    rw [splitSqlStatements, body.split]
    decide

/-! ## What is executed -/

/-- Without `(--[^\n]*\n)*` at the front. -/
def commentLines (cs : List Char) : List Char :=
  if ['-', '-'] <+: cs then
    match _ : cs.dropWhile (· ≠ '\n') with
    | [] => cs
    | _ :: rest => commentLines rest
  else cs
termination_by cs.length
decreasing_by
  rename_i line
  have shorter := (List.dropWhile_suffix (l := cs) (· ≠ '\n')).length_le
  rw [line] at shorter
  exact shorter

def isTransactionControl (unicode : Unicode) (stmt : String) : Bool :=
  let text := AuditLogInterceptor.trim
    (commentLines (stmt.toList.dropWhile AuditLogInterceptor.isSpace))
  let firstWord := unicode.toUpperCase
    (String.ofList (text.takeWhile fun c => !AuditLogInterceptor.isSpace c))
  firstWord = "BEGIN" || firstWord = "COMMIT" || firstWord = "ROLLBACK" || firstWord = "START"

/-- The statements that `main` executes, one by one and in one transaction. -/
def executed (unicode : Unicode) (sql : String) : List String :=
  (splitSqlStatements sql).filter fun s => !isTransactionControl unicode s

/-- The first words of the statements that are left out. -/
def controls : List (List Char) :=
  ["BEGIN".toList, "COMMIT".toList, "ROLLBACK".toList, "START".toList]

/-- Comment lines, white space and a word. -/
def headed (header : List (List Char)) (gap word : List Char) : List Char :=
  header.foldr (fun line rest => '-' :: '-' :: (line ++ '\n' :: rest)) (gap ++ word)

/-- One of these words, and what may come before it. -/
structure Heads (header : List (List Char)) (gap word : List Char) : Prop where
  lines : ∀ line ∈ header, '\n' ∉ line
  space : ∀ c ∈ gap, AuditLogInterceptor.isSpace c
  control : word ∈ controls

section executed
open AuditLogInterceptor
variable {unicode : Unicode} {header : List (List Char)} {line gap word : List Char}

theorem commentLines_line (single : '\n' ∉ line) (rest : List Char) :
    commentLines ('-' :: '-' :: (line ++ '\n' :: rest)) = commentLines rest := by
  have behind : ('-' :: '-' :: (line ++ '\n' :: rest)).dropWhile (· ≠ '\n') = '\n' :: rest := by
    have inside : ∀ c ∈ '-' :: '-' :: line, decide (c ≠ '\n') = true := by
      intro c hc
      apply decide_eq_true
      intro same
      subst same
      simp [single] at hc
    have rest' : (('-' :: '-' :: line) ++ '\n' :: rest).dropWhile (· ≠ '\n') =
        ('\n' :: rest).dropWhile (· ≠ '\n') := List.dropWhile_append_of_pos inside
    exact rest'.trans (by simp)
  rw [commentLines, if_pos ⟨line ++ '\n' :: rest, rfl⟩]
  split
  · rename_i none
    rw [behind] at none
    cases none
  · rename_i c more found
    rw [behind] at found
    rw [(List.cons.inj found).2]

/-- A word alone. -/
theorem Heads.alone (heads : Heads header gap word) : Heads [] [] word :=
  ⟨List.forall_mem_nil _, List.forall_mem_nil _, heads.control⟩

theorem Heads.word_space (heads : Heads header gap word) : ∀ c ∈ word, isSpace c = false := by
  have all : controls.all (fun word => word.all fun c => !isSpace c) = true := by decide
  intro c here
  simpa using List.all_eq_true.mp (List.all_eq_true.mp all word heads.control) c here

/-- No quotation, comment or end of a statement begins in it. -/
theorem Heads.plain (heads : Heads header gap word) {c : Char} (mem : c ∈ gap ++ word) :
    c ∉ [';', '\'', '"', '-', '/', '$'] := by
  have marks : [';', '\'', '"', '-', '/', '$'].all (fun c => !isSpace c) = true := by decide
  have all : controls.all (·.all (· ∉ [';', '\'', '"', '-', '/', '$'])) = true := by decide
  intro special
  rcases List.mem_append.mp mem with mem | mem
  · have other := List.all_eq_true.mp marks c special
    rw [heads.space c mem] at other
    cases other
  · have letters := List.all_eq_true.mp all word heads.control
    exact of_decide_eq_true (List.all_eq_true.mp letters c mem) special

theorem Heads.head? (heads : Heads header gap word) : word.head?.any isSpace = false := by
  cases word with
  | nil => rfl
  | cons c cs => exact heads.word_space c List.mem_cons_self

theorem Heads.getLast? (heads : Heads header gap word) : word.getLast?.any isSpace = false := by
  cases last : word.getLast? with
  | none => rfl
  | some c => exact heads.word_space c (List.mem_of_getLast? last)

theorem Heads.dropWhile_gap (heads : Heads header gap word) :
    (gap ++ word).dropWhile isSpace = word := by
  rw [List.dropWhile_append_of_pos heads.space]
  exact Words.dropWhile_eq heads.head?

theorem Heads.trim_gap (heads : Heads header gap word) : trim (gap ++ word) = word := by
  have word_eq : trim word = word := Words.strip_eq heads.head? heads.getLast?
  rw [trim, Words.dropWhile_eq heads.head?] at word_eq
  rw [trim, heads.dropWhile_gap, word_eq]

theorem headed_append (header : List (List Char)) (gap word : List Char) :
    ∃ front, headed header gap word = front ++ word := by
  induction header with
  | nil => exact ⟨gap, rfl⟩
  | cons line header ih =>
    obtain ⟨front, same⟩ := ih
    refine ⟨'-' :: '-' :: (line ++ '\n' :: front), ?_⟩
    simp only [headed, List.foldr_cons] at same ⊢
    rw [same]
    simp

/-- With comment lines in front there is nothing to trim. -/
theorem Heads.trim_headed (heads : Heads header gap word) :
    trim (headed header gap word) = headed header gap word ∨
      trim (headed header gap word) = word := by
  cases header with
  | nil => exact .inr heads.trim_gap
  | cons line header =>
    refine .inl (Words.strip_eq rfl ?_)
    obtain ⟨front, same⟩ := headed_append (line :: header) gap word
    have nonempty : word ≠ [] := by
      have all : ∀ word ∈ controls, word ≠ [] := by decide
      exact all word heads.control
    rw [same, List.getLast?_append_of_ne_nil _ nonempty]
    exact heads.getLast?

theorem Heads.commentLines_eq (heads : Heads header gap word) :
    commentLines (headed header gap word) = gap ++ word := by
  obtain ⟨lines, space, control⟩ := heads
  induction header with
  | nil =>
    have plain : ¬['-', '-'] <+: gap ++ word := by
      intro start
      exact Heads.plain ⟨lines, space, control⟩ (start.subset List.mem_cons_self) (by decide)
    exact (commentLines.eq_def _).trans (if_neg plain)
  | cons line header ih =>
    obtain ⟨single, lines⟩ := List.forall_mem_cons.mp lines
    exact (commentLines_line single _).trans (ih lines)

/-- The first word, whatever comes before it. -/
theorem Heads.firstWord (heads : Heads header gap word) :
    trim (commentLines ((headed header gap word).dropWhile isSpace)) = word := by
  cases header with
  | nil =>
    have first := heads.alone.commentLines_eq
    rw [headed, List.foldr_nil, List.nil_append] at first
    rw [headed, List.foldr_nil, heads.dropWhile_gap, first]
    exact heads.alone.trim_gap
  | cons line header =>
    have front : (headed (line :: header) gap word).dropWhile isSpace =
        headed (line :: header) gap word := Words.dropWhile_eq rfl
    rw [front, heads.commentLines_eq, heads.trim_gap]

theorem Heads.isTransactionControl_headed (heads : Heads header gap word) :
    isTransactionControl unicode (String.ofList (headed header gap word)) = true := by
  have whole : word.takeWhile (fun c => !isSpace c) = word :=
    List.takeWhile_eq_self_iff.mpr fun c mem => by simp [heads.word_space c mem]
  have upper : ∀ word ∈ controls, IsAscii (String.ofList word) ∧
      (String.ofList word).map Char.toUpper = String.ofList word ∧
      (String.ofList word = "BEGIN" ∨ String.ofList word = "COMMIT" ∨
        String.ofList word = "ROLLBACK" ∨ String.ofList word = "START") := by decide +kernel
  obtain ⟨ascii, same, known⟩ := upper word heads.control
  simp only [isTransactionControl, String.toList_ofList, heads.firstWord, whole,
    unicode.toUpperCase_ascii _ ascii, same]
  simpa [or_assoc] using known

theorem Heads.run (heads : Heads header gap word) (after : List Char) :
    Run (headed header gap word) after := by
  have single : ∀ {c : Char} {after}, c ∉ [';', '\'', '"', '-', '/', '$'] → Piece [c] after := by
    intro c after other
    simp only [List.mem_cons, List.not_mem_nil, not_or] at other
    refine .plain (by simp [other]) (by simp [other]) ?_
    rintro tag ⟨name, rfl, -⟩ ⟨rest, same⟩
    exact other.2.2.2.2.2.1 (List.cons.inj same).1.symm
  obtain ⟨lines, space, control⟩ := heads
  induction header with
  | nil =>
    have kept : ∀ c ∈ gap ++ word, c ∉ [';', '\'', '"', '-', '/', '$'] :=
      fun c mem => Heads.plain ⟨lines, space, control⟩ mem
    rw [headed, List.foldr_nil]
    generalize gap ++ word = cs at kept ⊢
    induction cs with
    | nil => exact .nil
    | cons c cs ih =>
      obtain ⟨first, rest⟩ := List.forall_mem_cons.mp kept
      exact .cons (single first) (ih rest)
  | cons line header ih =>
    obtain ⟨closed, lines⟩ := List.forall_mem_cons.mp lines
    have newline : Run ('\n' :: headed header gap word) after :=
      .cons (single (by decide)) (ih lines)
    exact .cons (.lineComment closed (by simp)) newline

/-- No other statement is in it, and none of it is executed. -/
theorem Heads.executed_nil (heads : Heads header gap word) :
    executed unicode (String.ofList (headed header gap word)) = [] := by
  have script : Script [headed header gap word] (headed header gap word) := .last (heads.run [])
  have left :
      isTransactionControl unicode (String.ofList (trim (headed header gap word))) = true := by
    rcases heads.trim_headed with same | same
    · rw [same]
      exact heads.isTransactionControl_headed
    · rw [same]
      exact heads.alone.isTransactionControl_headed
  apply List.filter_eq_nil_iff.mpr
  intro s mem
  rw [splitSqlStatements, String.toList_ofList, script.split, List.nil_append] at mem
  obtain ⟨text, kept, rfl⟩ := List.mem_map.mp mem
  obtain rfl := List.mem_singleton.mp (List.mem_filter.mp kept).1
  simp [left]

theorem Heads.closed (heads : Heads header gap word) : Closed (headed header gap word) :=
  ⟨[], _, .last (heads.run []), heads.run _⟩

theorem executed_append {a : String} (b : String) (closed : Closed a.toList) :
    executed unicode (a ++ ";" ++ b) = executed unicode a ++ executed unicode b := by
  rw [executed, splitSqlStatements_append b closed, List.filter_append]
  rfl

end executed

/-- **What `main` executes.** Of single statements that a script has between `BEGIN`,
behind comment lines, and `COMMIT`, all are executed, and nothing else. -/
theorem executed_wrapped (unicode : Unicode) {header : List (List Char)} {gap : List Char}
    (lines : ∀ line ∈ header, '\n' ∉ line) (space : ∀ c ∈ gap, AuditLogInterceptor.isSpace c)
    (ss : List String)
    (single : ∀ s ∈ ss, splitSqlStatements s = [s] ∧ Closed s.toList ∧
      isTransactionControl unicode s = false) :
    executed unicode (String.ofList (headed header gap "BEGIN".toList) ++ ";" ++
      (String.join (ss.map (· ++ ";")) ++ "COMMIT;")) = ss := by
  have begins : Heads header gap "BEGIN".toList := ⟨lines, space, by decide⟩
  have commits : Heads [] [] "COMMIT".toList :=
    ⟨List.forall_mem_nil _, List.forall_mem_nil _, by decide⟩
  have nothing : executed unicode "" = [] := by
    change ((splitLoop [] [] []).map String.ofList).filter _ = []
    rw [splitLoop_nil]
    rfl
  rw [executed_append _ (by rw [String.toList_ofList]; exact begins.closed), begins.executed_nil,
    List.nil_append]
  induction ss with
  | nil =>
    have last : executed unicode ("COMMIT" ++ ";" ++ "") = [] := by
      rw [executed_append (a := "COMMIT") _ commits.closed, nothing, List.append_nil]
      exact commits.executed_nil
    exact last
  | cons s ss ih =>
    obtain ⟨alone, closed, other⟩ := single s List.mem_cons_self
    rw [List.map_cons, String.join_cons, String.append_assoc, executed_append _ closed,
      ih fun s mem => single s (List.mem_cons_of_mem _ mem), executed, alone,
      List.filter_cons_of_pos (by simp [other])]
    rfl

open ApplyRls.Demo in
/-- The body in a transaction, behind a line of comment and an empty one. -/
theorem executed_wrapped_body :
    executed Unicode.ascii "--a\n\nBEGIN;$$;$$;COMMIT;" = ["$$;$$"] := by
  have body : Script ["$$;$$".toList] "$$;$$".toList := .last (body_run [])
  have space : ∀ c ∈ ['\n'], AuditLogInterceptor.isSpace c := List.forall_mem_singleton.mpr rfl
  refine @executed_wrapped Unicode.ascii [['a']] ['\n'] (by decide) space ["$$;$$"] ?_
  intro s mem
  obtain rfl := List.mem_singleton.mp mem
  refine ⟨?_, ⟨[], _, body, body_run _⟩, ?_⟩
  · rw [splitSqlStatements, body.split]
    decide
  · have start : commentLines "$$;$$".toList = "$$;$$".toList := by
      rw [commentLines, if_neg (by decide)]
    have text : "$$;$$".toList.dropWhile AuditLogInterceptor.isSpace = "$$;$$".toList := rfl
    rw [isTransactionControl, text, start]
    decide +kernel

end Dormitory.ApplyRls
