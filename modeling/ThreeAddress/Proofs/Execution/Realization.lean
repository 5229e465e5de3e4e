import ThreeAddress.Proofs.Execution.Fragment

/-!
# What a fragment realizes

A fragment `Realizes` an effect when, wherever it stands in the code, the machine runs through it
from front to back exactly in the ways that the effect allows. Fragments behind each other, a choice
and the two kinds of loop realize the effects that are composed in the same way.

The temporaries below a bound are the frame: a fragment may rely on them, and leaves them alone.
-/

namespace ThreeAddress

set_option autoImplicit false

variable {Value Feed : Type} [DecidableEq Value] [Std.Stream Feed Value]

open Machine Quad

section Definitions

variable (meaning : Interpretation Value) (code : List Quad) (low : Nat) (base : Nat → Value)

/-- The machine always runs through the fragment, without a change to the world, and `post` holds of
the temporaries behind it. -/
def Prepares (fragment : List Quad) (post : World Value Feed → (Nat → Value) → Prop) : Prop :=
  ∀ (start : Nat) (world : World Value Feed) (temps : Nat → Value),
    Stands code start fragment → Kept low base temps →
    ∃ later, Reaches meaning code ⟨start, world, temps⟩
        ⟨start + fragment.length, world, later⟩ ∧
      Kept low base later ∧ post world later

/-- The fragment leaves a value of the world in an operand. -/
def Computes (lowered : LoweredValue) (value : World Value Feed → Value) : Prop :=
  Prepares meaning code low base lowered.code fun world later =>
    lowered.value.value? meaning world.store later = some (value world)

/-- The fragment does to the world what `effect` says. The first part says that the machine can
follow the effect; the second, that a machine which comes to the end of the code has an effect to
follow. Since the machine has no choice, it then does follow it. -/
structure Realizes (fragment : List Quad) (effect : Effect Value Feed) : Prop where
  follows : ∀ (start : Nat) (world after : World Value Feed) (temps : Nat → Value),
    Stands code start fragment → Kept low base temps → effect world after →
    ∃ later, Reaches meaning code ⟨start, world, temps⟩
        ⟨start + fragment.length, after, later⟩ ∧ Kept low base later
  allowed : ∀ (steps start : Nat) (world : World Value Feed) (temps : Nat → Value),
    Stands code start fragment → Kept low base temps →
    FinishesIn meaning code steps ⟨start, world, temps⟩ → ∃ after, effect world after

end Definitions

variable {meaning : Interpretation Value} {code : List Quad} {low : Nat} {base : Nat → Value}

namespace Prepares

/-- The frame alone prepares what can be read off it. -/
theorem nil {post : World Value Feed → (Nat → Value) → Prop}
    (holds : ∀ world temps, Kept low base temps → post world temps) :
    Prepares meaning code low base [] post :=
  fun _ world temps _ kept => ⟨temps, .refl _, kept, holds world temps kept⟩

/-- What the front leaves behind is kept by a back that has a wider frame. -/
theorem append {front back : List Quad} {middle : Nat}
    {first second post : World Value Feed → (Nat → Value) → Prop}
    (fronts : Prepares meaning code low base front first) (wider : low ≤ middle)
    (backs : ∀ temps, Prepares meaning code middle temps back second)
    (join : ∀ world temps later, first world temps → Kept middle temps later →
      second world later → post world later) :
    Prepares meaning code low base (front ++ back) post := by
  intro start world temps stands kept
  obtain ⟨between, ran, keptBetween, known⟩ := fronts start world temps stands.left kept
  obtain ⟨later, reached, keptLater, found⟩ :=
    backs between (start + front.length) world between stands.right (.refl middle between)
  refine ⟨later, ?_, keptBetween.trans (keptLater.mono wider),
    join world between later known keptLater found⟩
  rw [List.length_append, ← Nat.add_assoc]
  exact ran.trans reached

/-- A computation behind a fragment that prepares its operands. -/
theorem compute {front : List Quad} {op : Operation} {first : Operand} {second : Option Operand}
    {next : Nat} {left value : World Value Feed → Value}
    {right : World Value Feed → Option Value}
    (fronts : Prepares meaning code low base front fun (world : World Value Feed) later =>
      first.value? meaning world.store later = some (left world) ∧
        ∀ start, readSecond? meaning (⟨start, world, later⟩ : Machine Value Feed) second =
          some (right world))
    (applied : ∀ world, op.apply? meaning (left world) (right world) = some (value world))
    (fresh : low ≤ next) :
    Computes meaning code low base (LoweredValue.compute front op first second next) value := by
  intro start world temps stands kept
  obtain ⟨between, ran, keptBetween, known, knownSecond⟩ :=
    fronts start world temps stands.left kept
  refine ⟨Function.update between next (value world), ?_, keptBetween.update fresh _, ?_⟩
  · have written : write? (⟨start + front.length, world, between⟩ : Machine Value Feed)
        (value world) (.temp next) =
          some ⟨start + front.length, world, Function.update between next (value world)⟩ := rfl
    have stored := step?_compute stands.right known (knownSecond _) (applied world) written
    rw [LoweredValue.compute, List.length_append, ← Nat.add_assoc]
    exact ran.trans (.step stored)
  · simp [LoweredValue.compute, Operand.value?]

end Prepares

namespace Realizes

variable {fragment front back : List Quad} {effect other : Effect Value Feed}

/-- A fragment with one way through it. -/
theorem of_function (change : World Value Feed → World Value Feed)
    (runs : ∀ (start : Nat) (world : World Value Feed) (temps : Nat → Value),
      Stands code start fragment → Kept low base temps →
      ∃ later, Reaches meaning code ⟨start, world, temps⟩
        ⟨start + fragment.length, change world, later⟩ ∧ Kept low base later) :
    Realizes meaning code low base fragment fun world after => after = change world where
  follows := by
    intro start world after temps stands kept same
    subst same
    exact runs start world temps stands kept
  allowed := by
    intro steps start world temps stands kept finished
    exact ⟨change world, rfl⟩

theorem nil :
    Realizes meaning code low base [] fun (world after : World Value Feed) => after = world :=
  of_function id fun _ _ temps _ kept => ⟨temps, .refl _, kept⟩

theorem congr (realizes : Realizes meaning code low base fragment effect)
    (same : ∀ world after, other world after ↔ effect world after) :
    Realizes meaning code low base fragment other where
  follows := by
    intro start world after temps stands kept holds
    exact realizes.follows start world after temps stands kept ((same world after).mp holds)
  allowed := by
    intro steps start world temps stands kept finished
    obtain ⟨after, holds⟩ := realizes.allowed steps start world temps stands kept finished
    exact ⟨after, (same world after).mpr holds⟩

/-- One quadruple that changes the world. -/
theorem single {quad : Quad} (change : World Value Feed → World Value Feed)
    (performs : ∀ machine : Machine Value Feed, machine.perform? meaning code quad =
      some { machine with world := change machine.world }.advance) :
    Realizes meaning code low base [quad] fun world after => after = change world := by
  refine of_function change ?_
  intro start world temps stands kept
  refine ⟨temps, .step ?_, kept⟩
  rw [step?_eq_perform? stands, performs]
  rfl

/-- A fragment with a wider frame fits into a narrower one. -/
theorem narrow {middle : Nat} (wider : low ≤ middle)
    (realizes : ∀ temps, Realizes meaning code middle temps fragment effect) :
    Realizes meaning code low base fragment effect where
  follows := by
    intro start world after temps stands kept holds
    obtain ⟨later, ran, keptLater⟩ :=
      (realizes temps).follows start world after temps stands (.refl middle temps) holds
    exact ⟨later, ran, kept.trans (keptLater.mono wider)⟩
  allowed := by
    intro steps start world temps stands kept finished
    exact (realizes temps).allowed steps start world temps stands (.refl middle temps) finished

/-- A machine at the front of a fragment that comes to the end of the code passes the back of the
fragment in a world that the effect allows. -/
theorem passes (realizes : Realizes meaning code low base fragment effect) {steps start : Nat}
    {world : World Value Feed} {temps : Nat → Value} (stands : Stands code start fragment)
    (kept : Kept low base temps)
    (finished : FinishesIn meaning code steps ⟨start, world, temps⟩) :
    ∃ after later fewer, effect world after ∧ Kept low base later ∧ fewer ≤ steps ∧
      FinishesIn meaning code fewer ⟨start + fragment.length, after, later⟩ := by
  obtain ⟨after, holds⟩ := realizes.allowed steps start world temps stands kept finished
  obtain ⟨later, ran, keptLater⟩ :=
    realizes.follows start world after temps stands kept holds
  obtain ⟨fewer, atMost, rest⟩ := finished.of_reaches ran
  exact ⟨after, later, fewer, holds, keptLater, atMost, rest⟩

theorem append (fronts : Realizes meaning code low base front effect)
    (backs : Realizes meaning code low base back other) :
    Realizes meaning code low base (front ++ back) (effect.andThen other) where
  follows := by
    intro start world after temps stands kept holds
    obtain ⟨between, first, second⟩ := holds
    obtain ⟨middle, ran, keptMiddle⟩ :=
      fronts.follows start world between temps stands.left kept first
    obtain ⟨later, reached, keptLater⟩ :=
      backs.follows _ between after middle stands.right keptMiddle second
    refine ⟨later, ?_, keptLater⟩
    rw [List.length_append, ← Nat.add_assoc]
    exact ran.trans reached
  allowed := by
    intro steps start world temps stands kept finished
    obtain ⟨between, middle, fewer, first, keptMiddle, _, rest⟩ :=
      fronts.passes stands.left kept finished
    obtain ⟨after, second⟩ := backs.allowed fewer _ between middle stands.right keptMiddle rest
    exact ⟨after, between, first, second⟩

/-- Quadruples one after another, each of which changes the world. -/
theorem map {Item : Type} (quads : Item → Quad)
    (change : World Value Feed → Item → World Value Feed)
    (performs : ∀ (item : Item) (machine : Machine Value Feed),
      machine.perform? meaning code (quads item) =
        some { machine with world := change machine.world item }.advance)
    (items : List Item) :
    Realizes meaning code low base (items.map quads)
      fun world after => after = items.foldl change world := by
  induction items with
  | nil => exact nil
  | cons item items ih =>
      refine ((single (change · item) (performs item)).append ih).congr ?_
      intro world after
      simp [Effect.andThen]

/-- A fragment whose effect depends on the temporaries that another one prepares for it. -/
theorem behind_prepared {middle : Nat} {post : World Value Feed → (Nat → Value) → Prop}
    {whole : Effect Value Feed} {parts : (Nat → Value) → Effect Value Feed}
    (fronts : Prepares meaning code low base front post) (wider : low ≤ middle)
    (backs : ∀ temps, Realizes meaning code middle temps back (parts temps))
    (join : ∀ world temps, post world temps →
      ∀ after, whole world after ↔ parts temps world after) :
    Realizes meaning code low base (front ++ back) whole where
  follows := by
    intro start world after temps stands kept holds
    obtain ⟨between, ran, keptBetween, known⟩ := fronts start world temps stands.left kept
    obtain ⟨later, reached, keptLater⟩ :=
      (backs between).follows _ world after between stands.right (.refl middle between)
        ((join world between known after).mp holds)
    refine ⟨later, ?_, keptBetween.trans (keptLater.mono wider)⟩
    rw [List.length_append, ← Nat.add_assoc]
    exact ran.trans reached
  allowed := by
    intro steps start world temps stands kept finished
    obtain ⟨between, ran, keptBetween, known⟩ := fronts start world temps stands.left kept
    obtain ⟨fewer, _, rest⟩ := finished.of_reaches ran
    obtain ⟨after, holds⟩ := (backs between).allowed fewer _ world between stands.right
      (.refl middle between) rest
    exact ⟨after, (join world between known after).mpr holds⟩

/-- The value that a fragment computes, stored in a variable. -/
theorem store {lowered : LoweredValue} {value : World Value Feed → Value} (target : String)
    (computes : Computes meaning code low base lowered value) :
    Realizes meaning code low base (lowered.code ++ [.assign lowered.value (.var target)])
      fun world after => after = world.set target (value world) := by
  refine of_function (fun world => world.set target (value world)) ?_
  intro start world temps stands kept
  obtain ⟨later, ran, keptLater, known⟩ := computes start world temps stands.left kept
  have written : write? (⟨start + lowered.code.length, world, later⟩ : Machine Value Feed)
      (value world) (.var target) =
        some ⟨start + lowered.code.length, world.set target (value world), later⟩ := rfl
  have stored := step?_compute stands.right known rfl rfl written
  refine ⟨later, ?_, keptLater⟩
  rw [List.length_append, ← Nat.add_assoc]
  exact ran.trans (.step stored)

section Control

variable {test : LoweredValue} {value : World Value Feed → Value}
variable {inside alternative : List Quad} {start again otherwise done : Nat}
variable {world : World Value Feed} {temps : Nat → Value}

/-- A test and the jump behind it: the machine goes on behind the jump, or at the label. -/
theorem branches (distinct : (definedLabels code).Nodup)
    (tests : Computes meaning code low base test value) {rest behind : List Quad} {target : Nat}
    (stands : Stands code start (test.code ++ .branch .jumpIfZero test.value otherwise :: rest))
    (labelled : Stands code target (.label otherwise :: behind)) (kept : Kept low base temps) :
    ∃ later, Kept low base later ∧ Reaches meaning code ⟨start, world, temps⟩
      ⟨if meaning.isTrue (value world) then start + test.code.length + 1 else target + 1,
        world, later⟩ := by
  obtain ⟨later, ran, keptLater, known⟩ := tests start world temps stands.left kept
  have jumped := step?_jump_if_zero stands.right known (labelled.label_index? distinct)
  refine ⟨later, keptLater, ran.trans ((Reaches.step jumped).trans ?_)⟩
  by_cases holds : meaning.isTrue (value world) = true
  · rw [if_pos holds, if_pos holds]
    exact .refl _
  · rw [if_neg holds, if_neg holds]
    exact .step (step?_label labelled)

/-- Two fragments, of which a test in front of them chooses one. -/
theorem choice (distinct : (definedLabels code).Nodup)
    (tests : Computes meaning code low base test value)
    (insides : Realizes meaning code low base inside effect)
    (others : Realizes meaning code low base alternative other) :
    Realizes meaning code low base
      (test.code ++ .branch .jumpIfZero test.value otherwise ::
        (inside ++ .jump done :: .label otherwise :: (alternative ++ [.label done])))
      fun world after =>
        (meaning.isTrue (value world) = true ∧ effect world after) ∨
          (¬ meaning.isTrue (value world) = true ∧ other world after) where
  follows := by
    intro start world after temps stands kept holds
    have atInside := stands.right.tail.left
    have atJump := stands.right.tail.right
    have atAlternative := atJump.tail.tail.left
    have atDone := atJump.tail.tail.right
    have length : start + (test.code ++ branch .jumpIfZero test.value otherwise ::
        (inside ++ jump done :: label otherwise :: (alternative ++ [label done]))).length =
        start + test.code.length + 1 + inside.length + 1 + 1 + alternative.length + 1 := by
      simp only [List.length_append, List.length_cons, List.length_nil]
      omega
    rw [length]
    obtain ⟨between, keptBetween, ran⟩ := branches distinct tests stands atJump.tail kept
    rcases holds with ⟨isTrue, first⟩ | ⟨isFalse, second⟩
    · rw [if_pos isTrue] at ran
      obtain ⟨later, reached, keptLater⟩ :=
        insides.follows _ world after between atInside keptBetween first
      have left : Reaches meaning code ⟨_, after, later⟩ ⟨_, after, later⟩ :=
        .step (step?_jump atJump (atDone.label_index? distinct))
      exact ⟨later, ran.trans (reached.trans (left.trans (.step (step?_label atDone)))),
        keptLater⟩
    · rw [if_neg isFalse] at ran
      obtain ⟨later, reached, keptLater⟩ :=
        others.follows _ world after between atAlternative keptBetween second
      exact ⟨later, ran.trans (reached.trans (.step (step?_label atDone))), keptLater⟩
  allowed := by
    intro steps start world temps stands kept finished
    have atInside := stands.right.tail.left
    have atJump := stands.right.tail.right
    have atAlternative := atJump.tail.tail.left
    obtain ⟨between, keptBetween, ran⟩ := branches distinct tests stands atJump.tail kept
    obtain ⟨fewer, _, rest⟩ := finished.of_reaches ran
    by_cases isTrue : meaning.isTrue (value world) = true
    · rw [if_pos isTrue] at rest
      obtain ⟨after, first⟩ := insides.allowed fewer _ world between atInside keptBetween rest
      exact ⟨after, .inl ⟨isTrue, first⟩⟩
    · rw [if_neg isTrue] at rest
      obtain ⟨after, second⟩ :=
        others.allowed fewer _ world between atAlternative keptBetween rest
      exact ⟨after, .inr ⟨isTrue, second⟩⟩

/-- A fragment that is run as long as the test in front of it holds. -/
theorem loop (distinct : (definedLabels code).Nodup)
    (tests : Computes meaning code low base test value)
    (insides : Realizes meaning code low base inside effect) :
    Realizes meaning code low base
      (.label again :: (test.code ++ .branch .jumpIfZero test.value done ::
        (inside ++ [.jump again, .label done])))
      (Effect.Loop (fun world => meaning.isTrue (value world) = true) effect) where
  follows := by
    intro start world after temps stands kept holds
    have atTest := stands.tail
    have atInside := atTest.right.tail.left
    have atJump := atTest.right.tail.right
    have length : start + (label again :: (test.code ++
        branch .jumpIfZero test.value done :: (inside ++ [jump again, label done]))).length =
        start + 1 + test.code.length + 1 + inside.length + 1 + 1 := by
      simp only [List.length_append, List.length_cons, List.length_nil]
      omega
    rw [length]
    -- Each round starts at the label again, with the frame still in place.
    induction holds generalizing temps with
    | stop isFalse =>
        obtain ⟨later, keptLater, ran⟩ := branches distinct tests atTest atJump.tail kept
        rw [if_neg isFalse] at ran
        exact ⟨later, (Reaches.step (step?_label stands)).trans ran, keptLater⟩
    | @again world next after isTrue first _ ih =>
        obtain ⟨between, keptBetween, ran⟩ := branches distinct tests atTest atJump.tail kept
        rw [if_pos isTrue] at ran
        obtain ⟨middle, reached, keptMiddle⟩ :=
          insides.follows _ _ _ between atInside keptBetween first
        obtain ⟨later, rounds, keptLater⟩ := ih middle keptMiddle
        have back : Reaches meaning code ⟨_, next, middle⟩ ⟨start, next, middle⟩ :=
          .step (step?_jump atJump (stands.label_index? distinct))
        exact ⟨later, (Reaches.step (step?_label stands)).trans
          (ran.trans (reached.trans (back.trans rounds))), keptLater⟩
  allowed := by
    intro steps start world temps stands kept finished
    have atTest := stands.tail
    have atInside := atTest.right.tail.left
    have atJump := atTest.right.tail.right
    -- A round takes at least the step over the label, so the rounds come to an end.
    induction steps using Nat.strong_induction_on generalizing world temps with
    | h steps ih =>
        obtain ⟨positive, entered⟩ := finished.after_step (step?_label stands)
        obtain ⟨between, keptBetween, ran⟩ := branches distinct tests atTest atJump.tail kept
        obtain ⟨fewer, atMost, rest⟩ := entered.of_reaches ran
        by_cases isTrue : meaning.isTrue (value world) = true
        · rw [if_pos isTrue] at rest
          obtain ⟨next, middle, remaining, first, keptMiddle, within, left⟩ :=
            insides.passes atInside keptBetween rest
          have back := left.after_step (step?_jump atJump (stands.label_index? distinct))
          obtain ⟨after, rounds⟩ := ih (remaining - 1) (by omega) next middle keptMiddle back.2
          exact ⟨after, .again isTrue first rounds⟩
        · exact ⟨world, .stop isTrue⟩

/-- A fragment that is run once, and again as long as the test behind it holds. -/
theorem repetition (distinct : (definedLabels code).Nodup)
    (insides : Realizes meaning code low base inside effect)
    (tests : Computes meaning code low base test value) :
    Realizes meaning code low base
      (.label again :: (inside ++ (test.code ++
        [.branch .jumpIfTrue test.value again, .label done])))
      (effect.repeatWhile fun world => meaning.isTrue (value world) = true) := by
  -- One round: the body, the test, and the jump back to the label or on to the end.
  have round : ∀ {start : Nat} {world after : World Value Feed} {temps : Nat → Value},
      Stands code start (.label again :: (inside ++ (test.code ++
        [.branch .jumpIfTrue test.value again, .label done]))) →
      Kept low base temps → effect world after →
      ∃ later, Kept low base later ∧ Reaches meaning code ⟨start + 1, world, temps⟩
        ⟨if meaning.isTrue (value after) then start
          else start + 1 + inside.length + test.code.length + 1, after, later⟩ := by
    intro start world after temps stands kept holds
    obtain ⟨between, ran, keptBetween⟩ :=
      insides.follows _ world after temps stands.tail.left kept holds
    obtain ⟨later, tested, keptLater, known⟩ :=
      tests _ after between stands.tail.right.left keptBetween
    have jumped := step?_jump_if_true stands.tail.right.right known (stands.label_index? distinct)
    exact ⟨later, keptLater, ran.trans (tested.trans (.step jumped))⟩
  have length : ∀ start, start + (label again :: (inside ++ (test.code ++
      [branch .jumpIfTrue test.value again, label done]))).length =
      start + 1 + inside.length + test.code.length + 1 + 1 := by
    intro start
    simp only [List.length_append, List.length_cons, List.length_nil]
    omega
  constructor
  · intro start world after temps stands kept holds
    obtain ⟨between, first, rounds⟩ := holds
    rw [length]
    induction rounds generalizing world temps with
    | @stop between isFalse =>
        obtain ⟨later, keptLater, ran⟩ := round stands kept first
        rw [if_neg isFalse] at ran
        have entered : Reaches meaning code ⟨start, world, temps⟩ ⟨start + 1, world, temps⟩ :=
          .step (step?_label stands)
        exact ⟨later, entered.trans
          (ran.trans (.step (step?_label stands.tail.right.right.tail))), keptLater⟩
    | @again between next after isTrue second _ ih =>
        obtain ⟨middle, keptMiddle, ran⟩ := round stands kept first
        rw [if_pos isTrue] at ran
        have entered : Reaches meaning code ⟨start, world, temps⟩ ⟨start + 1, world, temps⟩ :=
          .step (step?_label stands)
        obtain ⟨later, reached, keptLater⟩ := ih between middle keptMiddle second
        exact ⟨later, entered.trans (ran.trans reached), keptLater⟩
  · intro steps start world temps stands kept finished
    induction steps using Nat.strong_induction_on generalizing world temps with
    | h steps ih =>
        obtain ⟨positive, entered⟩ := finished.after_step (step?_label stands)
        obtain ⟨between, first⟩ :=
          insides.allowed _ _ world temps stands.tail.left kept entered
        obtain ⟨middle, keptMiddle, ran⟩ := round stands kept first
        obtain ⟨fewer, atMost, rest⟩ := entered.of_reaches ran
        by_cases isTrue : meaning.isTrue (value between) = true
        · rw [if_pos isTrue] at rest
          obtain ⟨after, next, second, rounds⟩ :=
            ih fewer (by omega) between middle keptMiddle rest
          exact ⟨after, between, first, .again isTrue second rounds⟩
        · exact ⟨between, between, first, .stop isTrue⟩

end Control

end Realizes

end ThreeAddress
