import ThreeAddress.Proofs.Token.Pattern

/-!
# The trivia before a token

Trivia are blanks, line comments up to the end of their line, and block comments. The pattern of
block comments describes the texts from `/*` to the first `*/` behind it. Main statement: what is
split off the front of a text is the longest run of trivia there.
-/

namespace ThreeAddress

set_option autoImplicit false

open scoped Computability

namespace Scan

def lineComment : Language Char :=
  anyOf (· = '/') * (anyOf (· = '/') * (anyOf inLine)∗)

/-- The part `(?:[^/*][^*]*\*+)*/` of the pattern of block comments. -/
def commentEnd : Language Char :=
  (anyOf (fun c => c ≠ '/' && c ≠ '*') * ((anyOf (· ≠ '*'))∗ * repeated (anyOf (· = '*'))))∗ *
    anyOf (· = '/')

/-- The part `[^*]*\*+(?:[^/*][^*]*\*+)*/` of the pattern of block comments. -/
def commentTail : Language Char :=
  (anyOf (· ≠ '*'))∗ * (repeated (anyOf (· = '*')) * commentEnd)

/-- The pattern `/\*[^*]*\*+(?:[^/*][^*]*\*+)*/`. -/
def blockComment : Language Char :=
  anyOf (· = '/') * (anyOf (· = '*') * commentTail)

/-- The text ends with the first `*/` in it. -/
def Closes (text : List Char) : Prop :=
  ∃ body, text = body ++ ['*', '/'] ∧ ¬ ['*', '/'] <:+: body ++ ['*']

theorem closes_star_slash_iff (rest : List Char) : Closes ('*' :: '/' :: rest) ↔ rest = [] := by
  constructor
  · rintro ⟨body, whole, first⟩
    match body with
    | [] => simpa using whole
    | [c] => simp at whole
    | c :: d :: body =>
        simp only [List.cons_append, List.cons.injEq] at whole
        obtain ⟨rfl, rfl, _⟩ := whole
        exact absurd ⟨[], body ++ ['*'], rfl⟩ first
  · rintro rfl
    exact ⟨[], rfl, by decide⟩

theorem not_closes_nil : ¬ Closes [] := by
  rintro ⟨body, whole, _⟩
  simp at whole

/-- A character that closes nothing does not matter. -/
theorem closes_cons_iff {c : Char} {rest : List Char}
    (further : ∀ tail, c = '*' → rest = '/' :: tail → False) :
    Closes (c :: rest) ↔ Closes rest := by
  constructor
  · rintro ⟨body, whole, first⟩
    cases body with
    | nil =>
        cases whole
        exact (further [] rfl rfl).elim
    | cons d body =>
        obtain ⟨rfl, rfl⟩ := List.cons.inj whole
        exact ⟨body, rfl, fun earlier => first (List.infix_cons earlier)⟩
  · rintro ⟨body, rfl, first⟩
    refine ⟨c :: body, rfl, ?_⟩
    rw [List.cons_append, List.infix_cons_iff, not_or]
    refine ⟨?_, first⟩
    -- A star here would have to be followed by the slash that `further` excludes.
    intro front
    obtain ⟨star, slash⟩ := List.cons_prefix_cons.mp front
    cases body with
    | nil => simp at slash
    | cons d body =>
        obtain ⟨same, _⟩ := List.cons_prefix_cons.mp slash
        exact further _ star.symm (by rw [← same]; rfl)

def starTail : Language Char :=
  (anyOf (· = '*'))∗ * commentEnd

section Equations

/-! One character at a time, the pattern of block comments is an automaton with two states. -/

theorem kstar_mul_eq (chars : Char → Bool) (language : Language Char) :
    (anyOf chars)∗ * language = language + anyOf chars * ((anyOf chars)∗ * language) := by
  conv_lhs => rw [← Language.one_add_self_mul_kstar_eq_kstar, add_mul, one_mul, mul_assoc]

theorem comment_tail_eq :
    commentTail = anyOf (· = '*') * starTail + anyOf (· ≠ '*') * commentTail := by
  have stars : repeated (anyOf (· = '*')) * commentEnd = anyOf (· = '*') * starTail :=
    mul_assoc _ _ _
  rw [← stars]
  exact kstar_mul_eq _ _

theorem star_tail_eq : starTail = commentEnd + anyOf (· = '*') * starTail :=
  kstar_mul_eq _ _

theorem comment_end_eq :
    commentEnd = anyOf (· = '/') + anyOf (fun c => c ≠ '/' && c ≠ '*') * commentTail := by
  conv_lhs =>
    rw [commentEnd, ← Language.one_add_self_mul_kstar_eq_kstar, add_mul, one_mul, mul_assoc]
  rw [mul_assoc, mul_assoc]
  rfl

end Equations

/-- What follows `/*` in the pattern of block comments is what closes the comment, and behind a
star it is what closes the comment together with the star. -/
theorem mem_comment_tail_and_star_tail_iff (text : List Char) :
    (text ∈ commentTail ↔ Closes text) ∧ (text ∈ starTail ↔ Closes ('*' :: text)) := by
  induction text with
  | nil =>
      constructor
      · apply iff_of_false _ not_closes_nil
        rw [comment_tail_eq, Language.mem_add]
        exact not_or_intro (nil_not_mem_any_of_mul _ _) (nil_not_mem_any_of_mul _ _)
      · rw [closes_cons_iff (by simp)]
        apply iff_of_false _ not_closes_nil
        rw [star_tail_eq, comment_end_eq, Language.mem_add, Language.mem_add]
        exact not_or_intro (not_or_intro (by simp [mem_any_of_iff]) (nil_not_mem_any_of_mul _ _))
          (nil_not_mem_any_of_mul _ _)
  | cons c rest ih =>
      obtain ⟨tails, starTails⟩ := ih
      have tail : c :: rest ∈ commentTail ↔ Closes (c :: rest) := by
        rw [comment_tail_eq, Language.mem_add, cons_mem_any_of_mul_iff, cons_mem_any_of_mul_iff,
          tails, starTails]
        by_cases star : c = '*'
        · simp [star]
        · rw [closes_cons_iff fun _ same => absurd same star]
          simp [star]
      refine ⟨tail, ?_⟩
      rw [star_tail_eq, comment_end_eq, Language.mem_add, Language.mem_add, mem_any_of_iff,
        cons_mem_any_of_mul_iff, cons_mem_any_of_mul_iff, tails, starTails]
      by_cases slash : c = '/'
      · rw [slash, closes_star_slash_iff]
        simp
      · rw [closes_cons_iff fun _ _ same => slash (List.cons.inj same).1]
        by_cases star : c = '*'
        · simp [star]
        · rw [closes_cons_iff fun _ same => absurd same star]
          simp [slash, star]

theorem mem_comment_tail_iff (text : List Char) : text ∈ commentTail ↔ Closes text :=
  (mem_comment_tail_and_star_tail_iff text).1

/-- A block comment reaches from `/*` to the first `*/` behind it. -/
theorem mem_block_comment_iff (text : List Char) :
    text ∈ blockComment ↔ ∃ tail, text = '/' :: '*' :: tail ∧ Closes tail := by
  rw [blockComment, mem_any_of_mul_iff]
  simp only [mem_any_of_mul_iff, mem_comment_tail_iff, decide_eq_true_eq]
  constructor
  · rintro ⟨_, _, rfl, rfl, _, tail, rfl, rfl, closes⟩
    exact ⟨tail, rfl, closes⟩
  · rintro ⟨tail, rfl, closes⟩
    exact ⟨'/', _, rfl, rfl, '*', tail, rfl, rfl, closes⟩

theorem mem_line_comment_iff (text : List Char) :
    text ∈ lineComment ↔ ∃ body, text = '/' :: '/' :: body ∧ ∀ c ∈ body, inLine c = true := by
  rw [lineComment, mem_any_of_mul_iff]
  simp only [mem_any_of_mul_iff, mem_kstar_any_of_iff, decide_eq_true_eq]
  constructor
  · rintro ⟨_, _, rfl, rfl, _, body, rfl, rfl, inside⟩
    exact ⟨body, rfl, inside⟩
  · rintro ⟨body, rfl, inside⟩
    exact ⟨'/', _, rfl, rfl, '/', body, rfl, rfl, inside⟩

/-- A text is cut so that its front is closed by the end of the front. -/
theorem split_comment?_eq_some_iff (text front rest : List Char) :
    splitComment? text = some (front, rest) ↔ text = front ++ rest ∧ Closes front := by
  fun_induction splitComment? text generalizing front with
  | case1 =>
      apply iff_of_false (by simp)
      rintro ⟨whole, closes⟩
      rw [(List.append_eq_nil_iff.mp whole.symm).1] at closes
      exact not_closes_nil closes
  | case2 tail =>
      constructor
      · intro found
        cases found
        exact ⟨rfl, (closes_star_slash_iff []).mpr rfl⟩
      · rintro ⟨whole, closes⟩
        cases front with
        | nil => exact absurd closes not_closes_nil
        | cons c front =>
            cases front with
            | nil =>
                rw [closes_cons_iff (by simp)] at closes
                exact absurd closes not_closes_nil
            | cons d front =>
                cases whole
                rw [closes_star_slash_iff] at closes
                rw [closes]
                rfl
  | case3 c tail further ih =>
      cases front with
      | nil =>
          apply iff_of_false (by simp)
          rintro ⟨_, closes⟩
          exact not_closes_nil closes
      | cons d front =>
          constructor
          · intro found
            obtain ⟨parts, inner, pair⟩ := Option.map_eq_some_iff.mp found
            cases pair
            obtain ⟨rfl, closes⟩ := (ih parts.1).mp inner
            refine ⟨rfl, (closes_cons_iff ?_).mpr closes⟩
            intro behind star slash
            exact further (behind ++ parts.2) star (by rw [slash]; rfl)
          · rintro ⟨whole, closes⟩
            cases whole
            rw [closes_cons_iff] at closes
            · rw [(ih front).mpr ⟨rfl, closes⟩]
              rfl
            · intro behind star slash
              exact further (behind ++ rest) star (by rw [slash]; rfl)

theorem split_comment?_eq_none_iff (text : List Char) :
    splitComment? text = none ↔ ¬ ['*', '/'] <:+: text := by
  fun_induction splitComment? text with
  | case1 => simp
  | case2 tail =>
      apply iff_of_false (by simp)
      exact not_not_intro ⟨[], tail, rfl⟩
  | case3 c tail further ih =>
      have noFront : ¬ ['*', '/'] <+: c :: tail := by
        intro front
        obtain ⟨star, behind, slash⟩ := List.cons_prefix_cons.mp front
        exact further behind star.symm slash.symm
      rw [Option.map_eq_none_iff, ih, List.infix_cons_iff, not_or]
      exact (and_iff_right noFront).symm

/-- One trivium, in front of `rest`: a blank, a line comment up to the end of the line, or a block
comment. -/
inductive Trivium : List Char → List Char → Prop
  | blank {c : Char} {rest : List Char} : isBlank c = true → Trivium [c] rest
  | line {text rest : List Char} : text ∈ lineComment → (∀ c ∈ rest.head?, c = '\n') →
      Trivium text rest
  | block {text rest : List Char} : text ∈ blockComment → Trivium text rest

/-- Trivia one after another, in front of `rest`. -/
inductive Trivia : List Char → List Char → Prop
  | nil {rest : List Char} : Trivia [] rest
  | cons {first run rest : List Char} : Trivium first (run ++ rest) → Trivia run rest →
      Trivia (first ++ run) rest

/-- The text `run ++ rest` starts with the trivia `run`, and with no longer run of trivia. -/
def LongestTrivia (run rest : List Char) : Prop :=
  Trivia run rest ∧ ∀ other behind, other ++ behind = run ++ rest → Trivia other behind →
    other.length ≤ run.length

theorem takeWhile_append_of_stop {chars : Char → Bool} {front rest : List Char}
    (inside : ∀ c ∈ front, chars c = true) (stop : ∀ c ∈ rest.head?, chars c = false) :
    (front ++ rest).takeWhile chars = front ∧ (front ++ rest).dropWhile chars = rest := by
  rw [List.takeWhile_append_of_pos inside, List.dropWhile_append_of_pos inside]
  cases rest with
  | nil => simp
  | cons c rest => simp [stop c rfl]

/-- What is left of a text behind a row of characters does not start with another one. -/
theorem head?_dropWhile {chars : Char → Bool} {text : List Char} :
    ∀ c ∈ (text.dropWhile chars).head?, chars c = false := by
  intro c first
  have stop := List.head?_dropWhile_not chars text
  rw [Option.mem_def.mp first] at stop
  exact stop

theorem trivium_of_trivium? {text front rest : List Char}
    (found : trivium? text = some (front, rest)) : Trivium front rest := by
  fun_cases trivium? text with
  | case1 tail =>
      simp only [trivium?, Option.some.injEq, Prod.mk.injEq] at found
      obtain ⟨rfl, rfl⟩ := found
      apply Trivium.line
      · exact (mem_line_comment_iff _).mpr ⟨_, rfl, fun _ member => List.mem_takeWhile_imp member⟩
      · intro c first
        simpa [inLine] using head?_dropWhile c first
  | case2 tail =>
      simp only [trivium?] at found
      obtain ⟨parts, inner, pair⟩ := Option.map_eq_some_iff.mp found
      cases pair
      have closes := ((split_comment?_eq_some_iff _ _ _).mp inner).2
      exact .block ((mem_block_comment_iff _).mpr ⟨_, rfl, closes⟩)
  | case3 c tail notLine notBlock blank =>
      simp only [trivium?, blank, if_true, Option.some.injEq, Prod.mk.injEq] at found
      obtain ⟨rfl, rfl⟩ := found
      exact .blank blank
  | case4 c tail notLine notBlock notBlank => simp [trivium?, notBlank] at found
  | case5 => simp [trivium?] at found

theorem Trivium.trivium? {front rest : List Char} (trivium : Trivium front rest) :
    Scan.trivium? (front ++ rest) = some (front, rest) := by
  cases trivium with
  | @blank c rest blank =>
      have notSlash : c ≠ '/' := by
        rintro rfl
        cases blank
      simp [Scan.trivium?, blank, notSlash]
  | line member ends =>
      obtain ⟨body, rfl, inside⟩ := (mem_line_comment_iff _).mp member
      have stop : ∀ c ∈ rest.head?, inLine c = false := by
        intro c first
        rw [ends c first]
        rfl
      obtain ⟨taken, dropped⟩ := takeWhile_append_of_stop inside stop
      rw [List.cons_append, List.cons_append, Scan.trivium?, taken, dropped]
  | block member =>
      obtain ⟨tail, rfl, closes⟩ := (mem_block_comment_iff _).mp member
      rw [List.cons_append, List.cons_append, Scan.trivium?,
        (split_comment?_eq_some_iff _ tail rest).mpr ⟨rfl, closes⟩]
      rfl

theorem trivia_split_trivia (text : List Char) :
    Trivia (splitTrivia text).1 (splitTrivia text).2 := by
  fun_induction splitTrivia text with
  | case1 text none => exact .nil
  | case2 text front rest found _ behind ih =>
      apply Trivia.cons _ ih
      have trivium := trivium_of_trivium? found
      rw [split_trivia_append]
      exact trivium

/-- Behind the trivia that are split off there is no further trivium. -/
theorem trivium?_split_trivia (text : List Char) : trivium? (splitTrivia text).2 = none := by
  fun_induction splitTrivia text with
  | case1 text none => exact none
  | case2 text front rest found _ behind ih => exact ih

/-- A trivium at the front is split off first. -/
theorem Trivium.split_trivia {front rest : List Char} (trivium : Trivium front rest) :
    Scan.splitTrivia (front ++ rest) =
      (front ++ (Scan.splitTrivia rest).1, (Scan.splitTrivia rest).2) := by
  have first := trivium.trivium?
  rw [Scan.splitTrivia]
  split
  · rename_i none
    rw [first] at none
    cases none
  · rename_i found
    rw [first] at found
    cases found
    rfl

/-- The trivia that are split off a text are the longest run of trivia at its front. -/
theorem longest_trivia_split_trivia (text : List Char) :
    LongestTrivia (splitTrivia text).1 (splitTrivia text).2 := by
  refine ⟨trivia_split_trivia text, ?_⟩
  intro other behind whole trivia
  rw [split_trivia_append] at whole
  subst whole
  induction trivia with
  | nil => exact Nat.zero_le _
  | @cons first run rest trivium _ ih =>
      rw [List.append_assoc, trivium.split_trivia, List.length_append, List.length_append]
      exact Nat.add_le_add_left ih _

end Scan

end ThreeAddress
