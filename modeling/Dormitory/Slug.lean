import Dormitory.AdminSessions
import Dormitory.Interceptors
import Dormitory.Unicode
import Dormitory.Words

/-!
# Slugs

`normalizeSlug` of `packages/shared/src/slug.ts` turns a name into words joined
by single hyphens and clamps it last, so that the clamp can leave a hyphen at
the end. `checkSlugAvailability` calls slugs available that are longer than the
column, and a sign-up with one of them fails.
-/

namespace Dormitory
open Words

/-- `SLUG_MAX_LEN`. -/
def slugMaxLen : Nat := 64

/-- The steps behind the folding, before the clamp. -/
def cleanSlug (folded : List Char) : List Char :=
  let spaced := replaceRuns (fun c => AuditLogInterceptor.isSpace c || c = '_') '-' folded
  let kept := spaced.filter fun c => slugAlnum c || c = '-'
  strip (· = '-') (replaceRuns (· = '-') '-' kept)

def normalizeSlug (unicode : Unicode) (raw : String) : String :=
  let folded := (unicode.toLowerCase (unicode.nfkd raw)).toList
  String.ofList ((cleanSlug folded).take slugMaxLen)

/-! ## The words of a name -/

/-- White space, underscores and hyphens separate words. -/
def slugSeparator (c : Char) : Bool := AuditLogInterceptor.isSpace c || c = '_' || c = '-'

/-- The words of a name, in lower case and without the characters that are dropped. -/
def slugWords (unicode : Unicode) (raw : String) : List (List Char) :=
  words slugSeparator slugAlnum (unicode.toLowerCase (unicode.nfkd raw)).toList

/-- The first few words, but not all of them, joined by hyphens are one character short of
the longest slug. -/
def CutBehindWord (unicode : Unicode) (raw : String) : Prop :=
  ∃ k < (slugWords unicode raw).length,
    0 < k ∧ (join '-' ((slugWords unicode raw).take k)).length = slugMaxLen - 1

instance (unicode : Unicode) (raw : String) : Decidable (CutBehindWord unicode raw) :=
  inferInstanceAs (Decidable (∃ k < _, _))

theorem slugAlnum_ascii {c : Char} (h : slugAlnum c = true) : c.toNat < 128 := by
  have z : ∀ d : Char, d ≤ 'z' → d.toNat ≤ 122 := fun d le => le
  have nine : ∀ d : Char, d ≤ '9' → d.toNat ≤ 57 := fun d le => le
  simp only [slugAlnum, Bool.decide_or, Bool.decide_and, Bool.or_eq_true, Bool.and_eq_true,
    decide_eq_true_eq] at h
  rcases h with h | h
  · have := z c h.2
    omega
  · have := nine c h.2
    omega

theorem slugAlphabet : Alphabet '-' slugSeparator slugAlnum where
  hyphen := by decide
  inner _ kept := forall_ascii (P := fun c => slugAlnum c = true → slugSeparator c = false)
    (by decide) (slugAlnum_ascii kept) kept

/-! ## Cleaning -/

theorem cleanSlug_clean (folded : List Char) : Clean '-' slugAlnum (cleanSlug folded) := by
  apply clean_strip _ (single_replaceRuns _ _)
  intro c mem
  rcases mem_replaceRuns mem with rfl | ⟨kept, -⟩
  · exact .inl rfl
  · have := (List.mem_filter.mp kept).2
    simp only [Bool.or_eq_true, decide_eq_true_eq] at this
    exact this.symm

theorem words_cleanSlug (folded : List Char) :
    words slugSeparator slugAlnum (cleanSlug folded) = words slugSeparator slugAlnum folded := by
  have dash : ∀ c, decide (c = '-') = true → slugSeparator c = true := by
    intro c same
    rw [of_decide_eq_true same]
    exact slugAlphabet.hyphen
  have spaces : ∀ c, (AuditLogInterceptor.isSpace c || decide (c = '_')) = true →
      slugSeparator c = true := by
    intro c space
    rw [slugSeparator, space, Bool.true_or]
  obtain ⟨spaced, hspaced⟩ : ∃ spaced, spaced =
      replaceRuns (fun c => AuditLogInterceptor.isSpace c || c = '_') '-' folded := ⟨_, rfl⟩
  -- No white space is left for the filter to drop.
  have filter : spaced.filter (fun c => slugAlnum c || c = '-') =
      spaced.filter (fun c => slugAlnum c || slugSeparator c) := by
    apply List.filter_congr
    intro c mem
    rw [hspaced] at mem
    rcases mem_replaceRuns mem with rfl | ⟨-, inner⟩
    · rfl
    · rw [slugSeparator, inner, Bool.false_or]
  have noise : ∀ c, (slugAlnum c || slugSeparator c) = false →
      slugSeparator c = false ∧ slugAlnum c = false := by
    intro c none
    exact (Bool.or_eq_false_iff.mp none).symm
  rw [cleanSlug, ← hspaced, words_strip dash, filter, words,
    cut_replaceRuns dash slugAlphabet.hyphen, cut_filter noise, hspaced,
    cut_replaceRuns spaces slugAlphabet.hyphen, words]

theorem cleanSlug_eq (folded : List Char) :
    cleanSlug folded = join '-' (words slugSeparator slugAlnum folded) := by
  rw [← words_cleanSlug, join_words slugAlphabet (cleanSlug_clean folded)]

/-- Cleaning changes nothing that is clean. -/
theorem cleanSlug_of_clean {l : List Char} (clean : Clean '-' slugAlnum l) : cleanSlug l = l := by
  rw [cleanSlug_eq, join_words slugAlphabet clean]

/-! ## The clamp -/

section clamp
variable (unicode : Unicode)

theorem normalizeSlug_eq (raw : String) : normalizeSlug unicode raw =
    String.ofList ((join '-' (slugWords unicode raw)).take slugMaxLen) := by
  simp only [normalizeSlug, cleanSlug_eq, slugWords]

theorem normalizeSlug_length (raw : String) :
    (normalizeSlug unicode raw).length ≤ slugMaxLen := by
  rw [normalizeSlug_eq, String.length_ofList, List.length_take]
  exact Nat.min_le_left _ _

theorem join_slugWords_clean (raw : String) :
    Clean '-' slugAlnum (join '-' (slugWords unicode raw)) := by
  rw [slugWords, ← cleanSlug_eq]
  exact cleanSlug_clean _

/-- A hyphen is left at the end if and only if the clamp cuts behind a word. -/
theorem normalizeSlug_getLast? (raw : String) :
    (normalizeSlug unicode raw).toList.getLast? = some '-' ↔ CutBehindWord unicode raw := by
  have hyphens : ∀ w ∈ slugWords unicode raw, '-' ∉ w := fun w mem => mem_words_ne slugAlphabet mem
  rw [normalizeSlug_eq, String.toList_ofList, slugMaxLen,
    (join_slugWords_clean unicode raw).getLast?_take, getElem?_join hyphens]
  constructor
  · rintro ⟨k, pos, less, length⟩
    exact ⟨k, less, pos, length⟩
  · rintro ⟨k, less, pos, length⟩
    exact ⟨k, pos, less, length⟩

theorem normalizeSlug_clean {raw : String} (uncut : ¬ CutBehindWord unicode raw) :
    Clean '-' slugAlnum (normalizeSlug unicode raw).toList := by
  rw [← normalizeSlug_getLast?] at uncut
  rw [normalizeSlug_eq, String.toList_ofList] at uncut ⊢
  exact (join_slugWords_clean unicode raw).take uncut

/-- Folding changes nothing that is clean. -/
theorem fold_clean {slug : String} (clean : Clean '-' slugAlnum slug.toList) :
    unicode.toLowerCase (unicode.nfkd slug) = slug := by
  have each : ∀ c ∈ slug.toList, c.toNat < 128 ∧ c.toLower = c := by
    intro c mem
    rcases clean.chars c mem with rfl | kept
    · decide
    · exact ⟨slugAlnum_ascii kept, forall_ascii (P := fun c => slugAlnum c = true → c.toLower = c)
        (by decide) (slugAlnum_ascii kept) kept⟩
  have ascii : IsAscii slug := fun c mem => (each c mem).1
  rw [unicode.nfkd_ascii _ ascii, unicode.toLowerCase_ascii _ ascii, ← String.toList_inj,
    String.toList_map]
  calc slug.toList.map Char.toLower = slug.toList.map id :=
        List.map_congr_left fun c mem => (each c mem).2
    _ = slug.toList := List.map_id _

theorem normalizeSlug_of_clean {slug : String} (clean : Clean '-' slugAlnum slug.toList)
    (short : slug.length ≤ slugMaxLen) : normalizeSlug unicode slug = slug := by
  simp only [normalizeSlug, fold_clean unicode clean, cleanSlug_of_clean clean]
  rw [List.take_of_length_le (by rwa [String.length_toList]), String.ofList_toList]

theorem slugRegex_of_clean {slug : String} (clean : Clean '-' slugAlnum slug.toList)
    (short : slug.length ≤ slugMaxLen) (some : slug.toList ≠ []) : slugRegex slug = true := by
  have ends : ∀ c ∈ slug.toList, c ≠ '-' → slugAlnum c = true := fun c mem other =>
    (clean.chars c mem).resolve_left other
  obtain ⟨c, cs, text⟩ := List.exists_cons_of_ne_nil some
  have first : slug.toList.head? = .some c := by rw [text]; rfl
  obtain ⟨e, last⟩ : ∃ e, slug.toList.getLast? = .some e := by
    cases found : slug.toList.getLast? with
    | none => exact absurd (List.getLast?_eq_none_iff.mp found) some
    | some e => exact ⟨e, rfl⟩
  have firstKept := ends c (List.mem_of_head? first) fun same => clean.first (same ▸ first)
  have lastKept := ends e (List.mem_of_getLast? last) fun same => clean.last (same ▸ last)
  have all : slug.toList.all (fun c => slugAlnum c ∨ c = '-') = true := by
    rw [List.all_eq_true]
    intro c mem
    simpa using (clean.chars c mem).symm
  simp only [slugRegex, all, first, last, Option.any_some, firstKept, lastKept]
  simpa [slugMaxLen] using short

/-- **`normalizeSlug` is a normal form as long as the clamp does not cut behind a word**: it
changes none of its results, none starts or ends with a hyphen, and all of two characters or
more match `SLUG_REGEX`. The clamp comes after the hyphens at the ends have gone. -/
theorem normalizeSlug_normal_iff (raw : String) :
    (normalizeSlug unicode (normalizeSlug unicode raw) = normalizeSlug unicode raw ∧
      (normalizeSlug unicode raw).toList.head? ≠ some '-' ∧
      (normalizeSlug unicode raw).toList.getLast? ≠ some '-' ∧
      (2 ≤ (normalizeSlug unicode raw).length → slugRegex (normalizeSlug unicode raw) = true)) ↔
    ¬ CutBehindWord unicode raw := by
  constructor
  · rintro ⟨-, -, last, -⟩ cut
    exact last ((normalizeSlug_getLast? unicode raw).mpr cut)
  · intro uncut
    have clean := normalizeSlug_clean unicode uncut
    have short := normalizeSlug_length unicode raw
    refine ⟨normalizeSlug_of_clean unicode clean short, clean.first, clean.last, fun long => ?_⟩
    apply slugRegex_of_clean clean short
    intro none
    rw [← String.length_toList, none] at long
    cases long

end clamp

/-- Sixty-three letters and another word. -/
theorem normalizeSlug_leaves_hyphen :
    ¬ ∀ (unicode : Unicode) (raw : String),
      normalizeSlug unicode (normalizeSlug unicode raw) = normalizeSlug unicode raw ∧
        (normalizeSlug unicode raw).toList.head? ≠ some '-' ∧
        (normalizeSlug unicode raw).toList.getLast? ≠ some '-' ∧
        (2 ≤ (normalizeSlug unicode raw).length →
          slugRegex (normalizeSlug unicode raw) = true) := by
  intro claim
  obtain ⟨name, letters⟩ : ∃ name, name = List.replicate 63 'a' ++ [' ', 'b'] := ⟨_, rfl⟩
  have words : slugWords .ascii (String.ofList name) = [List.replicate 63 'a', ['b']] := by
    simp only [slugWords, Unicode.ascii, String.toList_map, String.toList_ofList, letters]
    decide
  have cut : CutBehindWord .ascii (String.ofList name) := by
    unfold CutBehindWord
    rw [words]
    decide
  exact (claim .ascii (String.ofList name)).2.2.1 ((normalizeSlug_getLast? _ _).mpr cut)

/-! ## Availability -/

namespace Auth
open AuthService

theorem length_trim_le (s : String) : (AuditLogInterceptor.trim s.toList).length ≤ s.length := by
  rw [← String.length_toList]
  exact (strip_within AuditLogInterceptor.isSpace s.toList).length_le

theorem validateSlug_ok {s slug : String} (valid : validateSlug s = .ok slug) : slug = s := by
  unfold validateSlug at valid
  repeat' split at valid
  all_goals cases valid
  rfl

theorem available_iff {site : Site} {s : String} : checkSlugAvailability site s = .available ↔
    validateSlug s = .ok s ∧ site.lookupCompanyBySlug s = none := by
  unfold checkSlugAvailability
  cases valid : validateSlug s with
  | error reason => simp
  | ok slug =>
    obtain rfl := validateSlug_ok valid
    cases found : site.lookupCompanyBySlug slug with
    | none => simp [found]
    | some company => simp [found]

/-- The columns of the names and of the email have room for what the schema admits. -/
theorem signup_available (argon2 : Argon2) (jwt : JwtService) (now : Int) (draws : SignupDraws)
    {site : Site} {input : SignupInput}
    (available : checkSlugAvailability site input.slug = .available) :
    signup argon2 jwt now draws site input =
      if 32 < input.slug.length then (.error Tenancy.tooLong, site)
      else (.ok (issueTokens jwt now ⟨draws.userId, draws.companyId, input.slug,
          input.ownerEmail.toLower, [.company_owner]⟩),
        signupRows site draws input.slug input.ownerEmail.toLower
          (argon2.hash draws.salt input.ownerPassword)) := by
  obtain ⟨valid, free⟩ := available_iff.mp available
  have name := (length_trim_le input.companyName).trans (length_le_utf16Length _)
  have displayName := (length_trim_le input.ownerDisplayName).trans (length_le_utf16Length _)
  have email : input.ownerEmail.toLower.length ≤ utf16Length input.ownerEmail := by
    rw [show input.ownerEmail.toLower.length = input.ownerEmail.length from String.length_map]
    exact length_le_utf16Length _
  obtain ⟨short, short', short''⟩ := input.short
  have fits : 32 < input.slug.length ∨
      128 < (AuditLogInterceptor.trim input.companyName.toList).length ∨
      255 < input.ownerEmail.toLower.length ∨
      128 < (AuditLogInterceptor.trim input.ownerDisplayName.toList).length ↔
      32 < input.slug.length := by omega
  simp only [signup, valid, free, fits, Option.isSome_none, Bool.false_eq_true, if_false]

/-- **An available slug can be signed up with if and only if it fits its column**, which holds
32 characters, where the validator admits 64. -/
theorem available_signup_iff (argon2 : Argon2) (jwt : JwtService) (now : Int)
    (draws : SignupDraws) (site : Site) (input : SignupInput)
    (available : checkSlugAvailability site input.slug = .available) :
    ((∃ tokens, (signup argon2 jwt now draws site input).1 = .ok tokens) ∧
      (signup argon2 jwt now draws site input).2.tenancy.companies.find? draws.companyId =
        some ⟨draws.companyId, input.slug, none⟩) ↔
    input.slug.length ≤ 32 := by
  rw [signup_available argon2 jwt now draws available]
  constructor
  · rintro ⟨⟨tokens, answer⟩, -⟩
    by_contra long
    rw [if_pos (not_le.mp long)] at answer
    cases answer
  · intro fits
    rw [if_neg (not_lt.mpr fits)]
    exact ⟨⟨_, rfl⟩, Table.find?_put_self _ _⟩

namespace Demo

def draws : SignupDraws := ⟨2, 8, 2, 1, ""⟩

def signupWith (slug : String) : SignupInput where
  companyName := "Siam Court"
  slug := slug
  ownerEmail := "owner@siam.th"
  ownerPassword := "correct horse"
  ownerDisplayName := "Somchai"
  long := by decide
  short := by decide

end Demo

theorem available_signup_short :
    (∃ tokens, (signup Demo.argon2 Demo.jwt 0 Demo.draws Demo.office
      (Demo.signupWith "rama-nine")).1 = .ok tokens) ∧
    (signup Demo.argon2 Demo.jwt 0 Demo.draws Demo.office
      (Demo.signupWith "rama-nine")).2.tenancy.companies.find? 2 = some ⟨2, "rama-nine", none⟩ :=
  (available_signup_iff Demo.argon2 Demo.jwt 0 Demo.draws Demo.office (Demo.signupWith "rama-nine")
    (by decide)).mpr (by decide)

/-- Thirty-three letters. -/
def Demo.longSlug : String := "aaaaaaaaaaaaaaaaaaaaaaaaaaaaaaaaa"

/-- They are available, and nobody can sign up with them. -/
theorem available_slug_too_long :
    checkSlugAvailability Demo.office Demo.longSlug = .available ∧
      ¬ ∃ tokens, (signup Demo.argon2 Demo.jwt 0 Demo.draws Demo.office
        (Demo.signupWith Demo.longSlug)).1 = .ok tokens := by
  have available : checkSlugAvailability Demo.office (Demo.signupWith Demo.longSlug).slug =
      .available := by decide
  refine ⟨available, ?_⟩
  rintro ⟨tokens, answer⟩
  rw [signup_available _ _ _ _ available, if_pos (by decide)] at answer
  cases answer

end Auth

end Dormitory
