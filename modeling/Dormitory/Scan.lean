import Mathlib.Data.List.Infix

/-!
# Scanning up to a stop

The part of a text up to and including the first occurrence of a stop, and the
bodies that a doubled delimiter does not end.
-/

namespace Dormitory.Scan
variable {α : Type} [DecidableEq α]

/-! ## Up to a stop -/

/-- The text up to and including the first `stop`, or all of it. -/
def through (stop : List α) : List α → List α × List α
  | [] => ([], [])
  | c :: rest =>
    if stop <+: c :: rest then (stop, (c :: rest).drop stop.length)
    else (c :: (through stop rest).1, (through stop rest).2)

/-- The text has `stop` at its end and nowhere before. -/
def Closes (stop text : List α) : Prop := stop <:+ text ∧ ¬ stop <:+: text.dropLast

variable {stop text after : List α} {c : α}

theorem through_here {rest : List α} (here : stop <+: c :: rest) :
    through stop (c :: rest) = (stop, (c :: rest).drop stop.length) := by
  rw [through, if_pos here]

theorem through_later {rest : List α} (later : ¬ stop <+: c :: rest) :
    through stop (c :: rest) = (c :: (through stop rest).1, (through stop rest).2) := by
  rw [through, if_neg later]

omit [DecidableEq α] in
/-- A text that closes before its first character does ends at the stop. -/
theorem Closes.tail (closes : Closes stop (c :: text)) (other : stop ≠ c :: text) :
    Closes stop text := by
  obtain ⟨ends, first⟩ := closes
  have ends' := (List.suffix_cons_iff.mp ends).resolve_left other
  refine ⟨ends', fun early => first ?_⟩
  cases text with
  | nil => simpa using early
  | cons d text => exact List.infix_cons early

omit [DecidableEq α] in
theorem Closes.cons (closes : Closes stop text) (nonempty : text ≠ [])
    (later : ¬ stop <+: c :: text) : Closes stop (c :: text) := by
  obtain ⟨ends, first⟩ := closes
  refine ⟨ends.trans (List.suffix_cons c text), fun early => ?_⟩
  rw [List.dropLast_cons_of_ne_nil nonempty, List.infix_cons_iff] at early
  rcases early with early | early
  · refine later (early.trans ?_)
    rw [← List.dropLast_cons_of_ne_nil nonempty]
    exact List.dropLast_prefix _
  · exact first early

omit [DecidableEq α] in
theorem closes_self (nonempty : stop ≠ []) : Closes stop stop := by
  refine ⟨List.suffix_refl stop, fun early => ?_⟩
  have shorter := early.length_le
  have positive := List.length_pos_of_ne_nil nonempty
  rw [List.length_dropLast] at shorter
  omega

/-- **A closed text is scanned whatever comes after it.** -/
theorem through_append (nonempty : stop ≠ []) (closes : Closes stop text) :
    through stop (text ++ after) = (text, after) := by
  induction text with
  | nil => exact absurd (List.suffix_nil.mp closes.1) nonempty
  | cons c text ih =>
    by_cases here : stop <+: c :: (text ++ after)
    · have whole : stop = c :: text := by
        have within : stop <+: c :: text :=
          List.prefix_of_prefix_length_le here (List.prefix_append (c :: text) after)
            closes.1.length_le
        by_contra other
        refine closes.2 (List.IsPrefix.isInfix ?_)
        refine List.prefix_of_prefix_length_le within (List.dropLast_prefix _) ?_
        have shorter := within.length_le
        have apart : stop.length ≠ (c :: text).length :=
          fun same => other (within.eq_of_length same)
        rw [List.length_dropLast]
        omega
      rw [List.cons_append, through_here here, whole]
      simp
    · have other : stop ≠ c :: text := by
        rintro rfl
        exact here (List.prefix_append (c :: text) after)
      rw [List.cons_append, through_later here, ih (closes.tail other)]

/-- A text without the stop is scanned to its end. -/
theorem through_open (missing : ¬ stop <:+: text) : through stop text = (text, []) := by
  induction text with
  | nil => rfl
  | cons c text ih =>
    rw [List.infix_cons_iff, not_or] at missing
    rw [through_later missing.1, ih missing.2]

/-- Every text is closed somewhere, or nowhere. -/
theorem through_cases (nonempty : stop ≠ []) (cs : List α) :
    (∃ text after, cs = text ++ after ∧ Closes stop text) ∨ ¬ stop <:+: cs := by
  induction cs with
  | nil => exact .inr fun here => nonempty (List.infix_nil.mp here)
  | cons c rest ih =>
    by_cases here : stop <+: c :: rest
    · obtain ⟨after, same⟩ := here
      exact .inl ⟨stop, after, same.symm, closes_self nonempty⟩
    rcases ih with ⟨text, after, rfl, closes⟩ | missing
    · refine .inl ⟨c :: text, after, rfl, closes.cons ?_ fun early => here ?_⟩
      · rintro rfl
        exact nonempty (List.suffix_nil.mp closes.1)
      · exact early.trans (List.prefix_append (c :: text) after)
    · exact .inr fun found => (List.infix_cons_iff.mp found).elim here missing

/-! ## Doubled delimiters -/

/-- Every `q` is doubled. -/
def escape (q : α) (body : List α) : List α := body.flatMap fun c => if c = q then [q, q] else [c]

/-- The text up to and including the first `q` that is not doubled, or all of it. -/
def quoted (q : α) : List α → List α × List α
  | [] => ([], [])
  | [c] => ([c], [])
  | c :: d :: rest =>
    if c = q ∧ d = q then (q :: q :: (quoted q rest).1, (quoted q rest).2)
    else if c = q then ([q], d :: rest)
    else (c :: (quoted q (d :: rest)).1, (quoted q (d :: rest)).2)

variable {q : α} {body : List α}

theorem escape_cons (c : α) (body : List α) :
    escape q (c :: body) = (if c = q then [q, q] else [c]) ++ escape q body := rfl

/-- **A quoted body is scanned to its closing quote.** -/
theorem quoted_append (apart : after.head? ≠ some q) :
    quoted q (escape q body ++ q :: after) = (escape q body ++ [q], after) := by
  induction body with
  | nil =>
    cases after with
    | nil => rfl
    | cons d after =>
      have other : ¬ d = q := fun same => apart (congrArg some same)
      simp [escape, quoted, other]
  | cons c body ih =>
    rw [escape_cons]
    by_cases same : c = q
    · rw [if_pos same, List.append_assoc, List.cons_append, List.cons_append, List.nil_append,
        quoted, if_pos ⟨rfl, rfl⟩, ih]
      rfl
    · rw [if_neg same, List.append_assoc, List.cons_append, List.nil_append]
      obtain ⟨d, rest, next⟩ : ∃ d rest, escape q body ++ q :: after = d :: rest :=
        List.exists_cons_of_ne_nil (by simp)
      rw [next] at ih
      rw [next, quoted, if_neg fun both => same both.1, if_neg same, ih]
      rfl

theorem quoted_open (body : List α) : quoted q (escape q body) = (escape q body, []) := by
  induction body with
  | nil => rfl
  | cons c body ih =>
    rw [escape_cons]
    by_cases same : c = q
    · rw [if_pos same, List.cons_append, List.cons_append, List.nil_append, quoted,
        if_pos ⟨rfl, rfl⟩, ih]
    · rw [if_neg same, List.cons_append, List.nil_append]
      cases next : escape q body with
      | nil => rfl
      | cons d rest =>
        rw [next] at ih
        rw [quoted, if_neg fun both => same both.1, if_neg same, ih]

/-- Every text starts with a quoted body, closed or not. -/
theorem quoted_cases (q : α) (cs : List α) :
    (∃ body after, cs = escape q body ++ q :: after ∧ after.head? ≠ some q) ∨
      ∃ body, cs = escape q body := by
  induction cs using quoted.induct q with
  | case1 => exact .inr ⟨[], rfl⟩
  | case2 c =>
    by_cases same : c = q
    · exact .inl ⟨[], [], by rw [same]; rfl, nofun⟩
    · exact .inr ⟨[c], by simp [escape, same]⟩
  | case3 c d rest both ih =>
    obtain ⟨rfl, rfl⟩ := both
    rcases ih with ⟨body, after, rfl, apart⟩ | ⟨body, rfl⟩
    · exact .inl ⟨d :: body, after, by simp [escape], apart⟩
    · exact .inr ⟨d :: body, by simp [escape]⟩
  | case4 d rest other =>
    refine .inl ⟨[], d :: rest, rfl, fun same => other ⟨rfl, Option.some.inj same⟩⟩
  | case5 c d rest other single ih =>
    rcases ih with ⟨body, after, same, apart⟩ | ⟨body, same⟩
    · exact .inl ⟨c :: body, after, by rw [same]; simp [escape, single], apart⟩
    · exact .inr ⟨c :: body, by rw [same]; simp [escape, single]⟩

end Dormitory.Scan
