import ThreeAddress.Proofs.Syntax.Beginnings
import ThreeAddress.Proofs.Syntax.Readings

/-!
# Readings of token lists that fork

Two token lists begin alike and go on differently. As long as a reading stays in front of the fork
it cannot tell the two apart: it takes the same tokens from both, or it fails at the same token,
behind something that the phrase it reads begins with. The one exception is a condition in
parentheses, which may be given up because of what stands behind the fork. Readings that are
composed fork as their parts do.
-/

namespace ThreeAddress

set_option autoImplicit false

open Phrase

theorem TokenClass.Has.of_eq {found kind : TokenKind} (same : found = kind) :
    (TokenClass.exactly kind).Has found :=
  same ▸ .exactly

namespace Phrase

variable {first second third : Phrase} {written : List TokenKind}

theorem Derives.assoc (derives : (Phrase.both (.both first second) third).Derives written) :
    (Phrase.both first (.both second third)).Derives written := by
  cases derives with
  | both pair behind =>
      cases pair with
      | both before between =>
          rw [List.append_assoc]
          exact before.both (between.both behind)

theorem Derives.distrib (derives : (Phrase.both first (second ||| third)).Derives written) :
    (Phrase.both first second ||| Phrase.both first third).Derives written := by
  cases derives with
  | both before behind =>
      cases behind with
      | left one => exact .left (before.both one)
      | right other => exact .right (before.both other)

theorem Derives.in_order_append (front behind : List Phrase)
    (derives : (Phrase.both (inOrder front) (inOrder behind)).Derives written) :
    (inOrder (front ++ behind)).Derives written := by
  induction front generalizing written with
  | nil =>
      cases derives with
      | both nothing others =>
          cases nothing
          exact others
  | cons first rest ih =>
      cases derives.assoc with
      | both before others => exact before.both (ih others)

/-- A chain goes on with an operator and an item. -/
theorem Derives.more_chain {operator item : Phrase} {kind : TokenKind}
    (between : operator.Derives [kind])
    (derives : (Phrase.both (.token (.exactly kind))
      (.both item (.many (inOrder [operator, item])))).Derives written) :
    (Phrase.many (inOrder [operator, item])).Derives written := by
  cases derives with
  | both sign others =>
      cases others with
      | both part further =>
          cases sign with
          | token has =>
              cases has
              have link : (inOrder [operator, item]).Derives _ := between.in_order_cons part.single
              rw [← List.append_assoc]
              exact .more link further

end Phrase

inductive Read.Ending where
  | done (rest : List Token)
  | failed (rest : List Token)

def Read.Ending.rest : Read.Ending → List Token
  | .done rest | .failed rest => rest

namespace Read

variable {α β : Type} {bound wider : Nat}

def ending : Read bound α → Read.Ending
  | .ok reading => .done reading.rest
  | .fail failure => .failed failure.rest

@[simp] theorem ending_widen (read : Read bound α) (within : bound ≤ wider) :
    (read.widen within).ending = read.ending := by
  cases read <;> rfl

@[simp] theorem ending_map (read : Read bound α) (f : Reading bound α → β) :
    (read.map f).ending = read.ending := by
  cases read <;> rfl

theorem ending_and_then_of_failed {read : Read bound α} {rest : List Token}
    {next : (reading : Reading bound α) → Read reading.rest.length β}
    (ended : read.ending = .failed rest) : (read.andThen next).ending = .failed rest := by
  cases read with
  | ok reading => cases ended
  | fail failure => exact ended

theorem ending_and_tail_of_failed {read : Read bound α} {rest : List Token}
    {next : (reading : Reading bound α) → Read (reading.rest.length + 1) β}
    (ended : read.ending = .failed rest) : (read.andTail next).ending = .failed rest := by
  cases read with
  | ok reading => cases ended
  | fail failure => exact ended

theorem exists_of_ending_done {read : Read bound α} {rest : List Token}
    (ended : read.ending = .done rest) : ∃ reading, read = .ok reading ∧ reading.rest = rest := by
  cases read with
  | ok reading => exact ⟨reading, rfl, Read.Ending.done.inj ended⟩
  | fail failure => cases ended

theorem exists_of_ending_failed {read : Read bound α} {rest : List Token}
    (ended : read.ending = .failed rest) :
    ∃ failure, read = .fail failure ∧ failure.rest = rest := by
  cases read with
  | ok reading => cases ended
  | fail failure => exact ⟨failure, rfl, Read.Ending.failed.inj ended⟩

end Read

/-- The ends of two readings of `phrase`, of `common ++ ours` and of `common ++ theirs`. -/
inductive Read.Ending.Forked (ours theirs : List Token) (phrase : Phrase) (common : List Token)
    (ending other : Read.Ending) : Prop
  | done (front : List Token) {behind : List Token} {next : Token} : common = front ++ next :: behind →
      phrase.Derives (Token.kinds front) → ending = .done (next :: (behind ++ ours)) →
      other = .done (next :: (behind ++ theirs)) → Forked ours theirs phrase common ending other
  | failed (front : List Token) {behind : List Token} {next : Token} : common = front ++ next :: behind →
      phrase.Begins (Token.kinds front) → ending = .failed (next :: (behind ++ ours)) →
      other = .failed (next :: (behind ++ theirs)) → Forked ours theirs phrase common ending other
  /-- A condition in parentheses was given up. -/
  | shown (front : List Token) {behind : List Token} {next : Token} : common = front ++ next :: behind →
      phrase.ShowsGroup (Token.kinds front) next.kind →
      ending = .failed (next :: (behind ++ ours)) → Forked ours theirs phrase common ending other
  /-- The first reading came to the fork. -/
  | past : ending.rest.length ≤ ours.length → Forked ours theirs phrase common ending other

namespace Read.Ending.Forked

variable {ours theirs common : List Token} {first second : Phrase} {ending other : Read.Ending}

theorem imp (forked : Forked ours theirs first common ending other)
    (within : ∀ written, first.Derives written → second.Derives written) :
    Forked ours theirs second common ending other := by
  have leads := leads_of_derives within
  cases forked with
  | done front split derives here there => exact .done front split (within _ derives) here there
  | failed front split begins here there => exact .failed front split (leads _ begins) here there
  | shown front split shows here => exact .shown front split (shows.of_leads leads) here
  | past short => exact .past short

theorem behind (before : List Token) (derives : first.Derives (Token.kinds before))
    (forked : Forked ours theirs second common ending other) :
    Forked ours theirs (.both first second) (before ++ common) ending other := by
  have leads := leads_second derives second
  cases forked with
  | done front split others here there =>
      refine .done (before ++ front) (by rw [split, ← List.append_assoc]) ?_ here there
      rw [Token.kinds_append]
      exact derives.both others
  | failed front split begins here there =>
      refine .failed (before ++ front) (by rw [split, ← List.append_assoc]) ?_ here there
      rw [Token.kinds_append]
      exact leads _ begins
  | shown front split shows here =>
      refine .shown (before ++ front) (by rw [split, ← List.append_assoc]) ?_ here
      rw [Token.kinds_append]
      exact shows.of_leads leads
  | past short => exact .past short

end Read.Ending.Forked

/-- The readings of a family, each of its own tokens, which are fewer than `limit`: they leave a
part of their tokens, and two of them whose tokens fork fork themselves. -/
structure Forks (ours theirs : List Token) (limit : Nat) {ι α : Type} (tokens : ι → List Token)
    (phrase : Phrase) {bound : ι → Nat} (read : (i : ι) → Read (bound i) α) : Prop where
  within : ∀ i, (tokens i).length < limit →
    (read i).ending.rest.length ≤ (tokens i).length
  forked : ∀ i j common, tokens i = common ++ ours → tokens j = common ++ theirs →
    (tokens i).length < limit →
    Read.Ending.Forked ours theirs phrase common (read i).ending (read j).ending

/-- The readings of a function of the tokens and of something else, which does not matter. -/
def ForksFor (ours theirs : List Token) (limit : Nat) (phrase : Phrase) {ι α : Type}
    {size : ι → List Token → Nat}
    (function : (i : ι) → (tokens : List Token) → Read (size i tokens) α) : Prop :=
  Forks ours theirs limit Prod.snd phrase fun p : ι × List Token => function p.1 p.2

structure Behind {ι : Type} (bound : ι → Nat) (α : Type) where
  start : ι
  reading : Reading (bound start) α

namespace Forks

variable {ours theirs : List Token} {limit : Nat} {ι κ α β : Type} {tokens : ι → List Token}
variable {first second : Phrase} {bound wider : ι → Nat}
variable {read : (i : ι) → Read (bound i) α}

theorem of_zero (read : (i : ι) → Read (bound i) α) : Forks ours theirs 0 tokens first read where
  within _ short := absurd short (Nat.not_lt_zero _)
  forked _ _ _ _ _ short := absurd short (Nat.not_lt_zero _)

theorem mono {larger : Nat} (forks : Forks ours theirs larger tokens first read)
    (le : limit ≤ larger) : Forks ours theirs limit tokens first read where
  within i short := forks.within i (Nat.lt_of_lt_of_le short le)
  forked i j common here there short :=
    forks.forked i j common here there (Nat.lt_of_lt_of_le short le)

theorem imp (forks : Forks ours theirs limit tokens first read)
    (within : ∀ written, first.Derives written → second.Derives written) :
    Forks ours theirs limit tokens second read where
  within := forks.within
  forked i j common here there short := (forks.forked i j common here there short).imp within

/-- Only the endings count. -/
theorem congr {twin : (i : ι) → Read (wider i) β}
    (forks : Forks ours theirs limit tokens first read)
    (same : ∀ i, (twin i).ending = (read i).ending) :
    Forks ours theirs limit tokens first twin where
  within i short := by
    rw [same]
    exact forks.within i short
  forked i j common here there short := by
    rw [same, same]
    exact forks.forked i j common here there short

theorem comap (forks : Forks ours theirs limit tokens first read) (index : κ → ι) :
    Forks ours theirs limit (fun k => tokens (index k)) first fun k => read (index k) where
  within k := forks.within (index k)
  forked k l := forks.forked (index k) (index l)

/-- The readings of one function, wherever its tokens come from. -/
theorem on {size : List Token → Nat} {function : (tokens : List Token) → Read (size tokens) α}
    (forks : Forks ours theirs limit id first function) :
    Forks ours theirs limit tokens first fun i => function (tokens i) :=
  forks.comap tokens

theorem widen (forks : Forks ours theirs limit tokens first read)
    {le : ∀ i, bound i ≤ wider i} :
    Forks ours theirs limit tokens first fun i => (read i).widen (le i) :=
  forks.congr fun i => (read i).ending_widen (le i)

theorem map (forks : Forks ours theirs limit tokens first read)
    {f : (i : ι) → Reading (bound i) α → β} :
    Forks ours theirs limit tokens first fun i => (read i).map (f i) :=
  forks.congr fun i => (read i).ending_map (f i)

theorem single (forks : Forks ours theirs limit tokens first read) :
    Forks ours theirs limit tokens (inOrder [first]) read :=
  forks.imp fun _ derives => derives.single

/-- The first of two readings ended, and the second follows it if it succeeded. -/
theorem both {later : Nat} {size : Behind bound α → Nat}
    {next : (p : Behind bound α) → Read (size p) β} {whole : (i : ι) → Read (wider i) β}
    (forks : Forks ours theirs limit tokens first read)
    (follow : Forks ours theirs later (fun p => p.reading.rest) second next)
    (room : ∀ i reading, read i = .ok reading → (tokens i).length < limit →
      reading.rest.length < later)
    (ok : ∀ i reading, read i = .ok reading → (whole i).ending = (next ⟨i, reading⟩).ending)
    (fail : ∀ i failure, read i = .fail failure → (whole i).ending = .failed failure.rest) :
    Forks ours theirs limit tokens (.both first second) whole := by
  have leaves (i : ι) (short : (tokens i).length < limit) :
      (whole i).ending.rest.length ≤ (read i).ending.rest.length := by
    cases ended : read i with
    | fail failure =>
        rw [fail i failure ended]
        exact Nat.le_refl _
    | ok reading =>
        rw [ok i reading ended]
        exact follow.within ⟨i, reading⟩ (room i reading ended short)
  constructor
  · intro i short
    exact Nat.le_trans (leaves i short) (forks.within i short)
  · intro i j common here there short
    have leads := leads_first first second
    cases forks.forked i j common here there short with
    | done front split derives our their =>
        obtain ⟨reading, ended, rest⟩ := Read.exists_of_ending_done our
        obtain ⟨twin, endedToo, twinRest⟩ := Read.exists_of_ending_done their
        rw [ok i reading ended, ok j twin endedToo, split]
        exact (follow.forked ⟨i, reading⟩ ⟨j, twin⟩ _ rest twinRest
          (room i reading ended short)).behind front derives
    | failed front split begins our their =>
        obtain ⟨failure, ended, rest⟩ := Read.exists_of_ending_failed our
        obtain ⟨twin, endedToo, twinRest⟩ := Read.exists_of_ending_failed their
        rw [fail i failure ended, fail j twin endedToo, rest, twinRest]
        exact .failed front split (leads _ begins) rfl rfl
    | shown front split shows our =>
        obtain ⟨failure, ended, rest⟩ := Read.exists_of_ending_failed our
        rw [fail i failure ended, rest]
        exact .shown front split (shows.of_leads leads) rfl
    | past behind => exact .past (Nat.le_trans (leaves i short) behind)

/-- What is left by a reading has room where its tokens had. -/
theorem lt_of_ok (forks : Forks ours theirs limit tokens first read) (i : ι)
    (reading : Reading (bound i) α) (ended : read i = .ok reading)
    (short : (tokens i).length < limit) : reading.rest.length < limit := by
  have left := forks.within i short
  rw [ended] at left
  exact Nat.lt_of_le_of_lt left short

theorem and_then {next : (i : ι) → (reading : Reading (bound i) α) → Read reading.rest.length β}
    (forks : Forks ours theirs limit tokens first read)
    (follow : Forks ours theirs limit (fun p : Behind bound α => p.reading.rest) second
      fun p => next p.start p.reading) :
    Forks ours theirs limit tokens (.both first second) fun i => (read i).andThen (next i) := by
  refine forks.both follow forks.lt_of_ok ?_ ?_
  · intro i reading ended
    rw [ended, Read.andThen, Read.ending_widen]
  · intro i failure ended
    rw [ended]
    rfl

theorem and_tail
    {next : (i : ι) → (reading : Reading (bound i) α) → Read (reading.rest.length + 1) β}
    (forks : Forks ours theirs limit tokens first read)
    (follow : Forks ours theirs limit (fun p : Behind bound α => p.reading.rest) second
      fun p => next p.start p.reading) :
    Forks ours theirs limit tokens (.both first second) fun i => (read i).andTail (next i) := by
  refine forks.both follow forks.lt_of_ok ?_ ?_
  · intro i reading ended
    rw [ended, Read.andTail, Read.ending_widen]
  · intro i failure ended
    rw [ended]
    rfl

/-- A reading that has taken a token leaves room for less. -/
theorem and_tail_shorter {read : (i : ι) → Read (tokens i).length α}
    {next : (i : ι) → (reading : Reading (tokens i).length α) → Read (reading.rest.length + 1) β}
    (forks : Forks ours theirs (limit + 1) tokens first read)
    (follow : Forks ours theirs limit
      (fun p : Behind (fun i => (tokens i).length) α => p.reading.rest) second
      fun p => next p.start p.reading) :
    Forks ours theirs (limit + 1) tokens (.both first second) fun i =>
      (read i).andTail (next i) := by
  refine forks.both follow ?_ ?_ ?_
  · intro i reading _ short
    exact Nat.lt_of_lt_of_le reading.shorter (Nat.le_of_lt_succ short)
  · intro i reading ended
    rw [ended, Read.andTail, Read.ending_widen]
  · intro i failure ended
    rw [ended]
    rfl

/-- A function that goes on behind a reading. -/
theorem carry {size : κ → List Token → Nat}
    {function : (k : κ) → (tokens : List Token) → Read (size k tokens) β}
    {room : Behind bound α → Nat} {next : (p : Behind bound α) → Read (room p) β}
    (forks : ForksFor ours theirs limit first function) (given : Behind bound α → κ)
    (same : ∀ p, (next p).ending = (function (given p) p.reading.rest).ending) :
    Forks ours theirs limit (fun p : Behind bound α => p.reading.rest) first next := by
  have behind := comap forks fun p : Behind bound α => (given p, p.reading.rest)
  exact behind.congr same

/-- A first part, and a function that is given its value and its end and reads the others. -/
theorem with_tail {part : (tokens : List Token) → Read tokens.length α}
    {tail : α → Span → (tokens : List Token) → Read (tokens.length + 1) β}
    (parts : Forks ours theirs limit id first part)
    (others : ForksFor ours theirs limit second fun left : α × Span => tail left.1 left.2) :
    Forks ours theirs limit id (inOrder [first, second]) fun tokens =>
      (part tokens).andTail fun left => tail left.value left.last left.rest :=
  parts.and_tail (.single (carry others (fun p => (p.reading.value, p.reading.last)) fun _ => rfl))

/-! ### Rules for the first token -/

/-- A reading that takes nothing. -/
theorem stay {value : ι → α} {last : ι → Span} {shorter : ∀ i, (tokens i).length < bound i} :
    Forks ours theirs limit tokens .empty fun i =>
      .ok ⟨value i, last i, tokens i, shorter i⟩ where
  within i _ := Nat.le_refl _
  forked i j common here there _ := by
    simp only [Read.ending, here, there]
    cases common with
    | nil => exact .past (Nat.le_refl _)
    | cons next behind => exact .done [] rfl .empty rfl rfl

/-- A reading that refuses its first token. -/
theorem refuse {expected : ι → Expected} :
    Forks ours theirs limit tokens first fun i =>
      (.fail ⟨expected i, tokens i⟩ : Read (bound i) α) where
  within i _ := Nat.le_refl _
  forked i j common here there _ := by
    simp only [Read.ending, here, there]
    cases common with
    | nil => exact .past (Nat.le_refl _)
    | cons next behind => exact .failed [] rfl (begins_nil first) rfl rfl

/-- A token in front of what is read. -/
theorem behind {kinds : TokenClass} {token : Token} (has : kinds.Has token.kind)
    (forks : Forks ours theirs limit tokens first read) :
    Forks ours theirs (limit + 1) (fun i => token :: tokens i) (.both (.token kinds) first)
      read where
  within i short := Nat.le_succ_of_le (forks.within i (Nat.lt_of_succ_lt_succ short))
  forked i j common here there short := by
    have fewer := Nat.lt_of_succ_lt_succ short
    cases common with
    | nil =>
        have all : token :: tokens i = ours := here
        rw [← all]
        exact .past (Nat.le_succ_of_le (forks.within i fewer))
    | cons next others =>
        obtain ⟨rfl, ours⟩ := List.cons.inj here
        obtain ⟨_, theirs⟩ := List.cons.inj there
        exact (forks.forked i j others ours theirs fewer).behind [token] (.token has)

theorem cons {kinds : TokenClass} {token : Token} (has : kinds.Has token.kind)
    (forks : Forks ours theirs limit tokens first read) :
    Forks ours theirs limit (fun i => token :: tokens i) (.both (.token kinds) first) read :=
  (forks.behind has).mono (Nat.le_succ limit)

/-- A reading that takes one token. -/
theorem take {kinds : TokenClass} {token : Token} (has : kinds.Has token.kind) {value : ι → α}
    {last : ι → Span} {shorter : ∀ i, (tokens i).length < bound i} :
    Forks ours theirs limit (fun i => token :: tokens i) (.token kinds) fun i =>
      .ok ⟨value i, last i, tokens i, shorter i⟩ := by
  refine (stay.cons has).imp ?_
  intro written derives
  cases derives with
  | both taken nothing =>
      cases nothing
      rwa [List.append_nil]

/-- A function that goes by the first of its tokens. -/
theorem of_first {size : ι → List Token → Nat}
    {function : (i : ι) → (tokens : List Token) → Read (size i tokens) α}
    (nothing : ∀ i, (function i []).ending.rest = [])
    (decides : ∀ token, Forks ours theirs limit (fun p : ι × List Token => token :: p.2) first
      fun p => function p.1 (token :: p.2)) :
    ForksFor ours theirs limit first function := by
  have within : ∀ p : ι × List Token, p.2.length < limit →
      (function p.1 p.2).ending.rest.length ≤ p.2.length := by
    rintro ⟨i, tokens⟩ short
    cases tokens with
    | nil => simp only [nothing, Nat.le_refl]
    | cons token rest => exact (decides token).within (i, rest) short
  refine ⟨within, ?_⟩
  rintro ⟨i, tokens⟩ ⟨j, others⟩ common here there short
  simp only at here there
  subst here there
  cases common with
  | nil => exact .past (within (i, ours) short)
  | cons token rest =>
      exact (decides token).forked (i, rest ++ ours) (j, rest ++ theirs) (token :: rest) rfl rfl
        short

theorem of_head {size : List Token → Nat} {function : (tokens : List Token) → Read (size tokens) α}
    (nothing : (function []).ending.rest = [])
    (decides : ∀ token, Forks ours theirs limit (fun rest => token :: rest) first
      fun rest => function (token :: rest)) :
    Forks ours theirs limit id first function := by
  have forks : ForksFor ours theirs limit first fun _ : Unit => function :=
    of_first (fun _ => nothing) fun token => (decides token).comap Prod.snd
  exact comap forks fun tokens => ((), tokens)

/-- Items behind operators, as long as an operator follows. -/
theorem chain {item operator : Phrase}
    {tail : ι → (tokens : List Token) → Read (tokens.length + 1) α}
    {part : (tokens : List Token) → Read tokens.length β}
    (parts : Forks ours theirs limit id item part)
    (nothing : ∀ i, (tail i []).ending.rest = [])
    (decides : ∀ token, (∀ i rest, (tail i (token :: rest)).ending = .done (token :: rest)) ∨
      operator.Derives [token.kind] ∧
        ∃ next : ι → (rest : List Token) → Reading rest.length β → ι,
          ∀ i rest, (tail i (token :: rest)).ending =
            ((part rest).andTail fun reading =>
              tail (next i rest reading) reading.rest).ending) :
    ForksFor ours theirs limit (.many (inOrder [operator, item])) tail := by
  induction limit with
  | zero => exact of_zero _
  | succ limit ih =>
      have items := parts.mono (Nat.le_succ limit)
      refine .of_first nothing fun token => ?_
      rcases decides token with stops | ⟨between, next, goesOn⟩
      · have stays : Forks ours theirs (limit + 1)
            (fun p : ι × List Token => token :: p.2) .empty fun p =>
              (.ok ⟨(), default, token :: p.2, Nat.lt_succ_self _⟩ :
                Read ((token :: p.2).length + 1) Unit) := .stay
        refine (stays.imp ?_).congr fun p => stops p.1 p.2
        intro written nothing
        cases nothing
        exact .none
      · have further : Forks ours theirs limit (fun p : ι × List Token => p.2)
            (.both item (.many (inOrder [operator, item]))) fun p =>
              (part p.2).andTail fun reading => tail (next p.1 p.2 reading) reading.rest := by
          apply items.on.and_tail
          exact carry (ih items) (fun p => next p.start.1 p.start.2 p.reading) fun _ => rfl
        refine ((further.behind .exactly).imp fun written => .more_chain between).congr ?_
        exact fun p => goesOn p.1 p.2

end Forks

end ThreeAddress
