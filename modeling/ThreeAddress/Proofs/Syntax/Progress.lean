import ThreeAddress.Proofs.Syntax.Calls
import ThreeAddress.Proofs.Syntax.Resumption

/-!
# The parser makes progress

No attempt goes past an end of the file, and an attempt that is not the rest of a loop takes a token
whenever it succeeds. The calls that it makes start behind a token that was taken, or at the same
token and at a lower level of the grammar. So calls cannot nest without end, though a condition in
parentheses that was tried in vain sends the index back to where it started.
-/

namespace ThreeAddress

set_option autoImplicit false

namespace Cursor

variable {tokens : List Token} {later : Cursor tokens}

section

variable {cursor mid : Cursor tokens}

/-- From `cursor` one gets to `later` past no end of the file. -/
structure Reaches (cursor later : Cursor tokens) : Prop where
  forward : cursor.index ≤ later.index
  notPast : ∀ stop, cursor.index ≤ stop → tokens[stop]?.map Token.kind = some .endOfFile →
    later.index ≤ stop

/-- The same past at least one token. -/
def Passes (cursor later : Cursor tokens) : Prop :=
  Reaches cursor later ∧ cursor.index < later.index

theorem Reaches.refl (cursor : Cursor tokens) : Reaches cursor cursor :=
  ⟨Nat.le_refl _, fun _ behind _ => behind⟩

theorem Reaches.trans (first : Reaches cursor mid) (second : Reaches mid later) :
    Reaches cursor later := by
  refine ⟨Nat.le_trans first.forward second.forward, ?_⟩
  intro stop behind final
  exact second.notPast stop (first.notPast stop behind final) final

theorem Passes.trans (first : Passes cursor mid) (second : Reaches mid later) :
    Passes cursor later :=
  ⟨first.1.trans second, Nat.lt_of_lt_of_le first.2 second.forward⟩

theorem kind_at_index (goesOn : cursor.current.kind ≠ .endOfFile) :
    tokens[cursor.index]?.map Token.kind = some cursor.current.kind := by
  rw [← List.head?_drop]
  exact congrArg (fun rest => rest.head?.map Token.kind) (rest_eq_cons rfl goesOn)

theorem passes_advance {kind : TokenKind} (found : cursor.current.kind = kind)
    (goesOn : kind ≠ .endOfFile) : Passes cursor cursor.advance := by
  subst found
  have moved : cursor.advance.index = cursor.index + 1 := by rw [advance, dif_neg goesOn]
  refine ⟨⟨?_, ?_⟩, ?_⟩
  · omega
  · intro stop behind final
    have apart : cursor.index ≠ stop := by
      rintro rfl
      rw [kind_at_index goesOn] at final
      exact goesOn (Option.some.inj final)
    omega
  · omega

theorem goes_on_of_shorter (shorter : cursor.advance.remaining < cursor.remaining) :
    cursor.current.kind ≠ .endOfFile := by
  intro ends
  rw [advance, dif_pos ends] at shorter
  exact Nat.lt_irrefl _ shorter

end

/-- The attempt looks at the current token alone. -/
inductive OneToken {α : Type} (cursor : Cursor tokens) : Attempt tokens cursor.remaining α → Prop
  | taken (value : α) (shorter : cursor.advance.remaining < cursor.remaining) :
      OneToken cursor (.done ⟨value, cursor.advance, shorter⟩)
  | refused (error : SyntaxError) : OneToken cursor (.failed error cursor)

theorem one_token_expect (cursor : Cursor tokens) (kind : TokenKind)
    (goesOn : kind ≠ .endOfFile) : OneToken cursor (cursor.expect kind goesOn) := by
  rw [expect]
  split
  · exact .taken _ _
  · exact .refused _

theorem one_token_ident (cursor : Cursor tokens) : OneToken cursor cursor.ident := by
  rw [ident]
  split
  · exact .taken _ _
  · exact .refused _

theorem one_token_data_type (cursor : Cursor tokens) : OneToken cursor cursor.dataType := by
  rw [dataType]
  split
  · exact .taken _ _
  · split
    · exact .taken _ _
    · exact .refused _

theorem one_token_array_size (cursor : Cursor tokens) : OneToken cursor cursor.arraySize := by
  rw [arraySize]
  split
  · exact .taken _ _
  · exact .refused _

theorem one_token_compare_op (cursor : Cursor tokens) : OneToken cursor cursor.compareOp := by
  rw [compareOp]
  split
  · exact .taken _ _
  · exact .refused _

namespace Call

variable {α β : Type}

def cursor : {α : Type} → Call tokens α → Cursor tokens
  | _, .sign _ cursor | _, .word _ cursor | _, .ident cursor | _, .dataType cursor
  | _, .arraySize cursor | _, .compareOp cursor | _, .expression cursor | _, .sumTail _ cursor
  | _, .product cursor | _, .productTail _ cursor | _, .unary cursor | _, .atom cursor
  | _, .comparison cursor | _, .condition cursor | _, .orTail _ cursor | _, .conjunction cursor
  | _, .andTail _ cursor | _, .conditionAtom cursor | _, .parenCondition cursor
  | _, .declaredType _ cursor | _, .declaration cursor | _, .constantDeclaration cursor
  | _, .assignment cursor | _, .input cursor | _, .commaNames cursor | _, .outputItems cursor
  | _, .output cursor | _, .statement cursor | _, .conditional cursor | _, .alternative _ _ cursor
  | _, .doWhile cursor | _, .forLoop cursor | _, .block cursor | _, .blockItems cursor
  | _, .program cursor => cursor

/-- How high the call stands in the grammar, above the calls that it may start with. -/
def level : {α : Type} → Call tokens α → Nat
  | _, .condition _ => 7
  | _, .conjunction _ => 6
  | _, .conditionAtom _ => 5
  | _, .comparison _ => 4
  | _, .expression _ | _, .blockItems _ | _, .program _ => 3
  | _, .product _ | _, .statement _ => 2
  | _, .unary _ | _, .parenCondition _ | _, .declaredType _ _ | _, .declaration _
  | _, .constantDeclaration _ | _, .assignment _ | _, .input _ | _, .outputItems _ | _, .output _
  | _, .conditional _ | _, .doWhile _ | _, .forLoop _ | _, .block _ => 1
  | _, .sign _ _ | _, .word _ _ | _, .ident _ | _, .dataType _ | _, .arraySize _ | _, .compareOp _
  | _, .atom _ | _, .sumTail _ _ | _, .productTail _ _ | _, .orTail _ _ | _, .andTail _ _
  | _, .commaNames _ | _, .alternative _ _ _ => 0

/-- The call is for the rest of a loop, or for an `else` that may be missing: it may succeed without
a token. -/
def mayBeEmpty : {α : Type} → Call tokens α → Bool
  | _, .sumTail _ _ | _, .productTail _ _ | _, .orTail _ _ | _, .andTail _ _ | _, .commaNames _
  | _, .alternative _ _ _ | _, .blockItems _ | _, .program _ => true
  | _, _ => false

/-- What may be told: no end of the file is passed, and something is taken if it has to be. -/
structure Allows (call : Call tokens α) (told : Told tokens α) : Prop where
  reaches : Reaches call.cursor told.2
  takes : call.mayBeEmpty = false → ∀ value, told.1 = .ok value → call.cursor.index < told.2.index

section Allows

variable {call : Call tokens α} {value : α} {error : SyntaxError}

theorem allows_ok (passes : Passes call.cursor later) : call.Allows (.ok value, later) :=
  ⟨passes.1, fun _ _ _ => passes.2⟩

theorem allows_error (reaches : Reaches call.cursor later) : call.Allows (.error error, later) := by
  refine ⟨reaches, ?_⟩
  intro _ value same
  cases same

theorem allows_told {attempt : Attempt tokens call.cursor.remaining α}
    (one : OneToken call.cursor attempt) : call.Allows attempt.told := by
  cases one with
  | taken value shorter => exact allows_ok (passes_advance rfl (goes_on_of_shorter shorter))
  | refused error => exact allows_error (.refl _)

end Allows

/-- A later index, or the same one at a lower level. -/
def Below (other : Call tokens β) (call : Call tokens α) : Prop :=
  call.cursor.index < other.cursor.index ∨
    call.cursor.index = other.cursor.index ∧ other.level < call.level

end Call

namespace Script

variable {α β : Type} {call : Call tokens α} {other : Call tokens β}

/-- Whatever may be told to the script, it makes calls below `call`, none of them past an end of the
file, and tells in the end what `call` may tell. -/
def Sound (call : Call tokens α) : Script tokens α → Prop
  | .done told => call.Allows told
  | .ask other next =>
      other.Below call ∧ Reaches call.cursor other.cursor ∧
        ∀ told, other.Allows told → (next told).Sound call

theorem sound_give {value : α} (passes : Passes call.cursor later) :
    (give value later).Sound call :=
  Call.allows_ok passes

/-- The loop is over, with nothing taken. -/
theorem sound_stop {value : α} (empty : call.mayBeEmpty = true) :
    (give value call.cursor).Sound call := by
  refine ⟨.refl _, ?_⟩
  rw [empty]
  intro same
  cases same

theorem sound_refuse {expected : Expected} :
    (refuse expected call.cursor : Script tokens α).Sound call :=
  Call.allows_error (.refl _)

/-- A first call at the same token. -/
theorem sound_read_first {next : β → Cursor tokens → Script tokens α}
    (same : other.cursor = call.cursor) (lower : other.level < call.level)
    (taking : other.mayBeEmpty = false)
    (follows : ∀ value later, Passes call.cursor later → (next value later).Sound call) :
    (read other next).Sound call := by
  refine ⟨.inr ⟨same ▸ rfl, lower⟩, same ▸ .refl _, ?_⟩
  intro told allowed
  rcases told with ⟨result, left⟩
  cases result with
  | error error => exact Call.allows_error (same ▸ allowed.reaches)
  | ok value => exact follows _ _ ⟨same ▸ allowed.reaches, same ▸ allowed.takes taking _ rfl⟩

/-- A call behind tokens that were taken. -/
theorem sound_read {next : β → Cursor tokens → Script tokens α}
    (passes : Passes call.cursor other.cursor)
    (follows : ∀ value later, Passes call.cursor later → (next value later).Sound call) :
    (read other next).Sound call := by
  refine ⟨.inl passes.2, passes.1, ?_⟩
  intro told allowed
  rcases told with ⟨result, left⟩
  cases result with
  | error error => exact Call.allows_error (passes.1.trans allowed.reaches)
  | ok value => exact follows _ _ (passes.trans allowed.reaches)

theorem sound_pass_first {other : Call tokens α} (same : other.cursor = call.cursor)
    (lower : other.level < call.level) (taking : other.mayBeEmpty = false) :
    (pass other).Sound call := by
  refine ⟨.inr ⟨same ▸ rfl, lower⟩, same ▸ .refl _, ?_⟩
  intro told allowed
  exact ⟨same ▸ allowed.reaches, fun _ => same ▸ allowed.takes taking⟩

theorem sound_pass {other : Call tokens α} (passes : Passes call.cursor other.cursor) :
    (pass other).Sound call := by
  refine ⟨.inl passes.2, passes.1, ?_⟩
  intro told allowed
  exact ⟨passes.1.trans allowed.reaches, fun _ _ _ => (passes.trans allowed.reaches).2⟩

theorem sound_close {mark : Mark} {value : Cursor tokens → α} (passes : Passes call.cursor later) :
    (close mark later value).Sound call :=
  sound_read passes fun _ _ further => sound_give further

theorem sound_chain {first : Call tokens α} {tail : α → Cursor tokens → Call tokens α}
    (same : first.cursor = call.cursor) (lower : first.level < call.level)
    (taking : first.mayBeEmpty = false)
    (behind : ∀ left later, (tail left later).cursor = later) : (chain first tail).Sound call := by
  refine sound_read_first same lower taking ?_
  intro left later passes
  apply sound_pass
  rw [behind]
  exact passes

theorem sound_links {join? : TokenKind → Option (α → α → α)} {link : Cursor tokens → Call tokens α}
    {tail : α → Cursor tokens → Call tokens α} (left : α) (empty : call.mayBeEmpty = true)
    (goesOn : join? .endOfFile = none) (starts : ∀ later, (link later).cursor = later)
    (behind : ∀ left later, (tail left later).cursor = later) :
    (links join? link tail left call.cursor).Sound call := by
  rw [links]
  split
  next => exact sound_stop empty
  next join found =>
    have further : call.cursor.current.kind ≠ .endOfFile := by
      intro final
      rw [final, goesOn] at found
      cases found
    refine sound_read ?_ ?_
    · rw [starts]
      exact passes_advance rfl further
    · intro right later passes
      apply sound_pass
      rw [behind]
      exact passes

end Script

open Script

theorem sound_unary (cursor : Cursor tokens) : (unaryScript cursor).Sound (.unary cursor) := by
  rw [unaryScript]
  split
  next minus =>
    have passes : Passes cursor cursor.advance := passes_advance minus TokenKind.noConfusion
    exact sound_read passes fun _ _ further => sound_give further
  next => exact sound_pass_first rfl (Nat.lt_succ_self _) rfl

theorem sound_atom (cursor : Cursor tokens) :
    (atomScriptOf cursor cursor.current.kind).Sound (.atom cursor) := by
  rw [atomScriptOf.eq_def]
  split
  next text kind => exact sound_give (passes_advance kind TokenKind.noConfusion)
  next text kind => exact sound_give (passes_advance kind TokenKind.noConfusion)
  next name kind =>
    have named : Passes cursor cursor.advance := passes_advance kind TokenKind.noConfusion
    split
    next opened =>
      have passes := named.trans (passes_advance opened TokenKind.noConfusion).1
      exact sound_read passes fun _ _ further => sound_close further
    next => exact sound_give named
  next kind =>
    have passes : Passes cursor cursor.advance := passes_advance kind TokenKind.noConfusion
    exact sound_read passes fun _ _ further => sound_close further
  next => exact sound_refuse

theorem sound_condition_atom (cursor : Cursor tokens) :
    (conditionAtomScript cursor).Sound (.conditionAtom cursor) := by
  rw [conditionAtomScript]
  split
  next bang =>
    have passes : Passes cursor cursor.advance := passes_advance bang TokenKind.noConfusion
    exact sound_read passes fun _ _ further => sound_give further
  next =>
    split
    next =>
      have lower : (1 : Nat) < 5 := by decide
      refine ⟨.inr ⟨rfl, lower⟩, .refl _, ?_⟩
      intro told allowed
      rcases told with ⟨result, later⟩
      -- whatever went wrong in the parentheses, the comparison starts at the first token again
      cases result with
      | error error => exact sound_pass_first rfl (Nat.lt_succ_self _) rfl
      | ok cond => exact sound_give ⟨allowed.reaches, allowed.takes rfl _ rfl⟩
    next => exact sound_pass_first rfl (Nat.lt_succ_self _) rfl

theorem sound_declared_type (name : Ident) (cursor : Cursor tokens) :
    (declaredTypeScript name cursor).Sound (.declaredType name cursor) := by
  rw [declaredTypeScript]
  split
  next opened =>
    have passes : Passes cursor cursor.advance := passes_advance opened TokenKind.noConfusion
    exact sound_read passes fun _ _ further => sound_read further fun _ _ further =>
      sound_read further fun _ _ further => sound_read further fun _ _ further =>
        sound_close further
  next =>
    exact sound_read_first rfl (Nat.lt_succ_self _) rfl fun _ _ further => sound_close further

theorem sound_comma_names (cursor : Cursor tokens) :
    (commaNamesScript cursor).Sound (.commaNames cursor) := by
  rw [commaNamesScript]
  split
  next comma =>
    have passes : Passes cursor cursor.advance := passes_advance comma TokenKind.noConfusion
    exact sound_read passes fun _ _ further => sound_read further fun _ _ further =>
      sound_give further
  next => exact sound_stop rfl

theorem sound_output_items (cursor : Cursor tokens) :
    (outputItemsScriptOf cursor cursor.current.kind).Sound (.outputItems cursor) := by
  rw [outputItemsScriptOf.eq_def]
  split
  next text kind =>
    have passes : Passes cursor cursor.advance := passes_advance kind TokenKind.noConfusion
    exact sound_read passes fun _ _ further => sound_give further
  next =>
    exact sound_read_first rfl (Nat.lt_succ_self _) rfl fun _ _ further => sound_give further

theorem sound_statement (cursor : Cursor tokens) :
    (statementScript cursor).Sound (.statement cursor) := by
  rw [statementScript, statementCall?.eq_def]
  generalize cursor.current.kind = kind
  split
  next call found =>
    split at found <;> cases found <;>
      exact sound_read_first rfl (Nat.lt_succ_self _) rfl fun _ _ further => sound_give further
  next => exact sound_refuse

theorem sound_alternative (test : Cond) (body : List Stmt) (cursor : Cursor tokens) :
    (alternativeScript test body cursor).Sound (.alternative test body cursor) := by
  rw [alternativeScript]
  split
  next found =>
    have passes : Passes cursor cursor.advance := passes_advance found TokenKind.noConfusion
    exact sound_read passes fun _ _ further => sound_give further
  next => exact sound_stop rfl

theorem sound_block_items (cursor : Cursor tokens) :
    (blockItemsScript cursor).Sound (.blockItems cursor) := by
  rw [blockItemsScript]
  split
  next => exact sound_stop rfl
  next =>
    exact sound_read_first rfl (Nat.lt_succ_self _) rfl fun _ _ further =>
      sound_read further fun _ _ further => sound_give further

theorem sound_program (cursor : Cursor tokens) :
    (programScript cursor).Sound (.program cursor) := by
  rw [programScript]
  split
  next => exact sound_stop rfl
  next =>
    exact sound_read_first rfl (Nat.lt_succ_self _) rfl fun _ _ further =>
      sound_read further fun _ _ further => sound_give further

/-- One step of the recursion: no script calls but below its own call, and none passes an end of the
file. -/
theorem Call.script_sound {α : Type} (call : Call tokens α) : call.script.Sound call := by
  cases call with
  | sign mark cursor => exact allows_told (cursor.one_token_expect _ _)
  | word keyword cursor => exact allows_told (cursor.one_token_expect _ _)
  | ident cursor => exact allows_told cursor.one_token_ident
  | dataType cursor => exact allows_told cursor.one_token_data_type
  | arraySize cursor => exact allows_told cursor.one_token_array_size
  | compareOp cursor => exact allows_told cursor.one_token_compare_op
  | expression cursor => exact sound_chain rfl (Nat.lt_succ_self _) rfl fun _ _ => rfl
  | sumTail left cursor => exact sound_links left rfl rfl (fun _ => rfl) fun _ _ => rfl
  | product cursor => exact sound_chain rfl (Nat.lt_succ_self _) rfl fun _ _ => rfl
  | productTail left cursor => exact sound_links left rfl rfl (fun _ => rfl) fun _ _ => rfl
  | unary cursor => exact sound_unary cursor
  | atom cursor => exact sound_atom cursor
  | comparison cursor =>
      exact sound_read_first rfl (Nat.lt_succ_self _) rfl fun _ _ further =>
        sound_read further fun _ _ further => sound_read further fun _ _ further =>
          sound_give further
  | condition cursor => exact sound_chain rfl (Nat.lt_succ_self _) rfl fun _ _ => rfl
  | orTail left cursor => exact sound_links left rfl rfl (fun _ => rfl) fun _ _ => rfl
  | conjunction cursor => exact sound_chain rfl (Nat.lt_succ_self _) rfl fun _ _ => rfl
  | andTail left cursor => exact sound_links left rfl rfl (fun _ => rfl) fun _ _ => rfl
  | conditionAtom cursor => exact sound_condition_atom cursor
  | parenCondition cursor =>
      exact sound_read_first rfl (Nat.lt_succ_self _) rfl fun _ _ further =>
        sound_read further fun _ _ further => sound_close further
  | declaredType name cursor => exact sound_declared_type name cursor
  | declaration cursor =>
      exact sound_read_first rfl (Nat.lt_succ_self _) rfl fun _ _ further =>
        sound_read further fun _ _ further => sound_read further fun _ _ further =>
          sound_pass further
  | constantDeclaration cursor =>
      exact sound_read_first rfl (Nat.lt_succ_self _) rfl fun _ _ further =>
        sound_read further fun _ _ further => sound_read further fun _ _ further =>
          sound_read further fun _ _ further => sound_read further fun _ _ further =>
            sound_read further fun _ _ further => sound_read further fun _ _ further =>
              sound_close further
  | assignment cursor =>
      exact sound_read_first rfl (Nat.lt_succ_self _) rfl fun _ _ further =>
        sound_read further fun _ _ further => sound_read further fun _ _ further =>
          sound_close further
  | input cursor =>
      exact sound_read_first rfl (Nat.lt_succ_self _) rfl fun _ _ further =>
        sound_read further fun _ _ further => sound_read further fun _ _ further =>
          sound_read further fun _ _ further => sound_close further
  | commaNames cursor => exact sound_comma_names cursor
  | outputItems cursor => exact sound_output_items cursor
  | output cursor =>
      exact sound_read_first rfl (Nat.lt_succ_self _) rfl fun _ _ further =>
        sound_read further fun _ _ further => sound_read further fun _ _ further =>
          sound_read further fun _ _ further => sound_close further
  | statement cursor => exact sound_statement cursor
  | conditional cursor =>
      exact sound_read_first rfl (Nat.lt_succ_self _) rfl fun _ _ further =>
        sound_read further fun _ _ further => sound_read further fun _ _ further =>
          sound_read further fun _ _ further => sound_read further fun _ _ further =>
            sound_read further fun _ _ further => sound_pass further
  | alternative test body cursor => exact sound_alternative test body cursor
  | doWhile cursor =>
      exact sound_read_first rfl (Nat.lt_succ_self _) rfl fun _ _ further =>
        sound_read further fun _ _ further => sound_read further fun _ _ further =>
          sound_read further fun _ _ further => sound_read further fun _ _ further =>
            sound_read further fun _ _ further => sound_close further
  | forLoop cursor =>
      exact sound_read_first rfl (Nat.lt_succ_self _) rfl fun _ _ further =>
        sound_read further fun _ _ further => sound_read further fun _ _ further =>
          sound_read further fun _ _ further => sound_read further fun _ _ further =>
            sound_read further fun _ _ further => sound_read further fun _ _ further =>
              sound_read further fun _ _ further => sound_read further fun _ _ further =>
                sound_give further
  | block cursor =>
      exact sound_read_first rfl (Nat.lt_succ_self _) rfl fun _ _ further =>
        sound_read further fun _ _ further => sound_close further
  | blockItems cursor => exact sound_block_items cursor
  | program cursor => exact sound_program cursor

namespace Call

variable {α β : Type} {call : Call tokens α} {other : Call tokens β}

def depth (call : Call tokens α) : Nat :=
  8 * (tokens.length - call.cursor.index) + call.level

theorem level_le (call : Call tokens α) : call.level ≤ 7 := by
  cases call <;> simp [level]

theorem Below.depth_lt (below : other.Below call) : other.depth < call.depth := by
  have high := other.level_le
  have inside := other.cursor.inside
  simp only [depth]
  rcases below with further | ⟨same, lower⟩
  · omega
  · rw [same]
    omega

end Call

namespace Script

variable {α : Type} {call : Call tokens α} {script : Script tokens α}

theorem Sound.allows (sound : script.Sound call)
    (answered : ∀ (β : Type) (other : Call tokens β), other.Below call →
      other.Allows other.answer) : call.Allows script.told := by
  induction script with
  | done told => exact sound
  | ask other next ih =>
      obtain ⟨below, _, follows⟩ := sound
      exact ih _ (follows _ (answered _ other below))

theorem Sound.calls (sound : script.Sound call)
    (answered : ∀ (β : Type) (other : Call tokens β), other.Allows other.answer) :
    ∀ other ∈ script.calls, other.2.Below call ∧ Reaches call.cursor other.2.cursor := by
  induction script with
  | done told =>
      intro other member
      cases member
  | ask first next ih =>
      obtain ⟨below, reaches, follows⟩ := sound
      intro other member
      cases member with
      | head => exact ⟨below, reaches⟩
      | tail _ later => exact ih _ (follows _ (answered _ first)) other later

end Script

namespace Call

variable {α : Type}

/-- A call passes no end of the file, and one that has to take something does. -/
theorem allows_answer (call : Call tokens α) : call.Allows call.answer := by
  induction size : call.depth using Nat.strongRecOn generalizing α with
  | ind size ih =>
      rw [answer_eq_told]
      apply call.script_sound.allows
      intro β other below
      exact ih _ (size ▸ below.depth_lt) other rfl

/-- The calls that a call makes stand below it. -/
theorem calls_below (call : Call tokens α) :
    ∀ other ∈ call.script.calls, other.2.Below call ∧ Reaches call.cursor other.2.cursor :=
  call.script_sound.calls fun _ other => other.allows_answer

end Call

/-! ## Calls come to an end -/

namespace Script

variable {α : Type}

/-- Follows a script where calls may remain without an answer. -/
def run (answer? : (β : Type) → Call tokens β → Option (Told tokens β)) :
    Script tokens α → Option (Told tokens α)
  | .done told => some told
  | .ask call next => (answer? _ call).bind fun told => (next told).run answer?

theorem run_eq_told {answer? : (β : Type) → Call tokens β → Option (Told tokens β)}
    {script : Script tokens α}
    (answered : ∀ other ∈ script.calls, answer? other.1 other.2 = some other.2.answer) :
    script.run answer? = some script.told := by
  induction script with
  | done told => rfl
  | ask call next ih =>
      have first := answered ⟨_, call⟩ List.mem_cons_self
      rw [run, first]
      exact ih _ fun other member => answered other (List.mem_cons_of_mem _ member)

end Script

namespace Call

/-- Follows the scripts alone, with calls nested no deeper than `fuel`. -/
def run : Nat → (α : Type) → Call tokens α → Option (Told tokens α)
  | 0, _, _ => none
  | fuel + 1, _, call => call.script.run (run fuel)

/-- The scripts lead to the answer, however they are followed. -/
theorem run_eq_answer {fuel : Nat} {α : Type} {call : Call tokens α} (enough : call.depth < fuel) :
    run fuel α call = some call.answer := by
  induction fuel generalizing α with
  | zero => cases enough
  | succ fuel ih =>
      rw [run, answer_eq_told]
      apply Script.run_eq_told
      intro other member
      have below := (call.calls_below other member).1.depth_lt
      exact ih (by omega)

end Call

end Cursor

/-! ## The index -/

namespace Token

/-- The index goes from `start` to `next`, stays inside the list and passes no end of the file. -/
structure Advances (tokens : List Token) (start next : Nat) : Prop where
  forward : start ≤ next
  inside : next < tokens.length
  notPast : ∀ stop, start ≤ stop → tokens[stop]?.map Token.kind = some .endOfFile → next ≤ stop

end Token

/-- In a list that ends with the file, a cursor inside it is never moved out of it. -/
theorem Cursor.Reaches.advances {tokens : List Token} {cursor later : Cursor tokens}
    (closed : ∃ body, Token.kinds tokens = body ++ [.endOfFile])
    (inside : cursor.index < tokens.length) (reaches : Reaches cursor later) :
    Token.Advances tokens cursor.index later.index := by
  obtain ⟨body, ends⟩ := closed
  have size : tokens.length = body.length + 1 := by
    have both := congrArg List.length ends
    rwa [Token.kinds, List.length_map, List.length_append] at both
  have final : tokens[body.length]?.map Token.kind = some .endOfFile := by
    rw [← List.getElem?_map]
    change (Token.kinds tokens)[body.length]? = _
    rw [ends, List.getElem?_concat_length]
  have stopped := reaches.notPast body.length (by omega) final
  exact ⟨reaches.forward, by omega, reaches.notPast⟩

namespace Parser

open Cursor

theorem after_tokens (parser : Parser) (calls : Nat) :
    (parser.after calls).tokens = parser.tokens := by
  induction calls with
  | zero => rfl
  | succ calls ih => exact ih

theorem Ready.index_lt {parser : Parser} (ready : parser.Ready) :
    parser.index < parser.tokens.length := by
  obtain ⟨body, ends⟩ := ready
  have size := congrArg List.length ends
  have whole := parser.length_rest
  rw [Token.kinds, List.length_map, List.length_append, List.length_singleton] at size
  omega

/-- The parser makes progress and comes to an end, for every token list and after any number of
parses. Its index is inside the list, and a parse moves it on past no end of the file. The same
holds of every call of a function of the grammar at a cursor inside the list. A call that is not
for the rest of a loop moves the index if it succeeds. The calls that it makes itself start at a
later index, or at the same one and a lower level of the grammar, and to follow them is to get the
answer at a bounded depth. -/
theorem parse_progresses (tokens : List Token) (calls : Nat) :
    let parser := (Parser.ofTokens tokens).after calls
    parser.tokens = Token.closeList tokens ∧ parser.index < parser.tokens.length ∧
    Token.Advances parser.tokens parser.index parser.parse.2.index ∧
    ∀ (α : Type) (call : Call parser.tokens α),
      let start := call.cursor.index
      let next := call.answer.2.index
      start < parser.tokens.length →
      Token.Advances parser.tokens start next ∧
      (call.mayBeEmpty = false → ∀ value, call.answer.1 = .ok value → start < next) ∧
      (∀ other ∈ call.script.calls,
        let place := other.2.cursor.index
        Token.Advances parser.tokens start place ∧
          (start < place ∨ start = place ∧ other.2.level < call.level)) ∧
      ∀ fuel, 8 * (parser.tokens.length - start) + call.level < fuel →
        Call.run fuel α call = some call.answer := by
  intro parser
  have ready : parser.Ready := ready_after tokens calls
  have stored : parser.tokens = Token.closeList tokens := after_tokens _ calls
  have closed : ∃ body, Token.kinds parser.tokens = body ++ [.endOfFile] := by
    rw [stored]
    exact Token.exists_kinds_close_list tokens
  have moves : Reaches parser.cursor parser.parse.2.cursor :=
    (Call.program parser.cursor).allows_answer.reaches
  refine ⟨stored, ready.index_lt, moves.advances closed ready.index_lt, ?_⟩
  intro α call start next inside
  have allowed := call.allows_answer
  refine ⟨allowed.reaches.advances closed inside, allowed.takes, ?_, ?_⟩
  · intro other member
    obtain ⟨below, reaches⟩ := call.calls_below other member
    exact ⟨reaches.advances closed inside, below⟩
  · intro fuel enough
    exact Call.run_eq_answer enough

/-- An end of the file in the middle, and none at the end. The second parenthesis is first taken for
that of a condition. -/
def endInside : List Token :=
  Token.bare [.mark .leftParen, .mark .leftParen, .identifier "a", .mark .rightParen, .mark .less,
    .integer "1", .mark .rightParen, .endOfFile, .mark .semicolon]

theorem parse_progresses_end_inside :
    let parser := (Parser.ofTokens endInside).after 2
    let call : Call parser.tokens Cond := .conditionAtom ⟨1, ⟨7, 9⟩, by decide⟩
    parser.tokens.length = 10 ∧ parser.index < 10 ∧ call.answer.1.isOk = true ∧
      call.answer.2.index = 6 ∧ Token.Advances parser.tokens 1 6 ∧
      Call.run 80 _ call = some call.answer := by
  intro parser call
  obtain ⟨stored, inside, _, every⟩ := parse_progresses endInside 2
  have size : parser.tokens.length = 10 := by
    rw [stored]
    rfl
  obtain ⟨advances, _, _, ends⟩ := every _ call (by rw [size]; decide)
  have done : call.answer.1.isOk = true := by decide +kernel
  have stops : call.answer.2.index = 6 := by decide +kernel
  refine ⟨size, size ▸ inside, done, stops, stops ▸ advances, ?_⟩
  exact ends 80 (by rw [size]; decide)

end Parser

end ThreeAddress
