import ThreeAddress.Proofs.Scope.Pointers
import ThreeAddress.Proofs.Syntax.Places

/-!
# Diagnostics point at the text they name

The span of every diagnostic is cut between characters of the source, and its position is where a
token starts, or the bad text that ended the tokenization. A diagnostic about a name, a wrong token
or bad text points at exactly what it names.
-/

namespace ThreeAddress

set_option autoImplicit false

/-! ## Spans between characters -/

/-- The span runs around this part of the text. -/
def Span.HoldsIn (text part : List Char) (span : Span) : Prop :=
  ∃ before behind, text = before ++ part ++ behind ∧
    span = ⟨Bytes.size before, Bytes.size (before ++ part)⟩

theorem Bytes.eq_nil_of_size {text : List Char} (empty : size text = 0) : text = [] := by
  cases text with
  | nil => rfl
  | cons c rest =>
      have width : 0 < c.utf8Size := Char.utf8Size_pos c
      rw [size] at empty
      omega

/-- Of two fronts of a text, the one with more bytes goes on where the other ends. -/
theorem Bytes.exists_between {before after front behind : List Char}
    (same : before ++ after = front ++ behind) (le : size before ≤ size front) :
    ∃ middle, front = before ++ middle := by
  rcases List.append_eq_append_iff.mp same with ⟨middle, longer, _⟩ | ⟨middle, shorter, _⟩
  · exact ⟨middle, longer⟩
  · rw [shorter, size_append] at le
    have nothing : middle = [] := eq_nil_of_size (by omega)
    exact ⟨[], by rw [shorter, nothing, List.append_nil, List.append_nil]⟩

section Spans

variable {text part other : List Char} {span last : Span}

theorem Place.HoldsIn.spanned {place : Place} (holds : place.HoldsIn text part) :
    place.span.HoldsIn text part := by
  obtain ⟨before, behind, whole, rfl⟩ := holds
  exact ⟨before, behind, whole, rfl⟩

theorem Span.HoldsIn.bounds (holds : span.HoldsIn text part) :
    span.start ≤ span.stop ∧ span.stop ≤ Bytes.size text := by
  obtain ⟨before, behind, rfl, rfl⟩ := holds
  simp only [Bytes.size_append]
  omega

/-- A span that starts with one part of the text and stops with another. -/
theorem Span.HoldsIn.up_to (first : span.HoldsIn text part) (second : last.HoldsIn text other)
    (forward : span.start ≤ last.stop) :
    ∃ whole, Span.HoldsIn text whole ⟨span.start, last.stop⟩ := by
  obtain ⟨before, behind, split, rfl⟩ := first
  obtain ⟨front, rest, cut, rfl⟩ := second
  rw [List.append_assoc] at split
  obtain ⟨middle, between⟩ := Bytes.exists_between (split.symm.trans cut) forward
  exact ⟨middle, before, rest, by rw [← between, cut], by rw [← between]⟩

end Spans

/-! ## Nodes in the source -/

section Nodes

variable {source : List Char} {tokens : List Token} {program : Program} {node : Node}

/-- A node starts where a token starts, and its span is cut between characters. -/
theorem Node.StandsOn.located {segment : List Token} (scanned : tokenize source = .ok tokens)
    (part : segment <:+: tokens) (stands : node.StandsOn segment) :
    (∃ text, node.place.span.HoldsIn source text) ∧
      ∃ token ∈ tokens, node.place.position = token.place.position := by
  obtain ⟨ordered, places⟩ := tokenize_places scanned
  have around := stands.around (ordered.sublist part.sublist)
  have forward := around.start_le_stop (ordered.sublist part.sublist)
  obtain ⟨first, rest, shape, start, position⟩ := around.exists_first
  obtain ⟨front, last, split, stop⟩ := around.exists_last
  have opens : first ∈ tokens := part.subset (by simp [shape])
  have closes : last ∈ tokens := part.subset (by simp [split])
  rw [start, stop] at forward
  obtain ⟨text, holds⟩ := (places first opens).spanned.up_to (places last closes).spanned forward
  rw [← start, ← stop] at holds
  exact ⟨⟨text, holds⟩, first, opens, position⟩

/-- A node that is a name stands where this name stands in the source. -/
theorem Node.StandsOn.holds_in {segment : List Token} {name : String}
    (scanned : tokenize source = .ok tokens) (part : segment <:+: tokens)
    (stands : node.StandsOn segment) (written : node.unparse = [.identifier name]) :
    node.place.HoldsIn source name.toList := by
  obtain ⟨ordered, places⟩ := tokenize_places scanned
  have around := stands.around (ordered.sublist part.sublist)
  obtain ⟨token, nothing, rfl, kind, empty⟩ :=
    Token.exists_of_kinds_eq_cons (stands.written.trans written)
  cases List.map_eq_nil_iff.mp empty
  have same : node.place = token.place := around.unique (Place.around_single token)
  have holds := places token (part.subset List.mem_cons_self)
  rw [kind] at holds
  rw [same]
  exact holds

end Nodes

/-! ## Rejections -/

section Rejections

variable {source : List Char} {tokens : List Token}

theorem Rejection.located_of_holds_in {place : Place} {text : String}
    (holds : place.HoldsIn source text.toList) (kind : DiagnosticKind) (message : String) :
    Rejection.located source kind message place =
      ⟨kind, message, place.position, text, some place.span⟩ := by
  rw [Rejection.located, holds.slice?, Option.getD_some, String.ofList_toList]

/-- The diagnostic for bad text quotes it. -/
theorem Rejection.diagnostic?_of_bad_text {bad : BadText} (failed : tokenize source = .error bad) :
    (Rejection.ofBadText bad).diagnostic? source =
      some ⟨.lexical, bad.message, bad.place.position, bad.text, some bad.place.span⟩ :=
  congrArg some (Rejection.located_of_holds_in (tokenize_bad_place failed) _ _)

/-- The wrong token of a syntax error stands in the source. -/
theorem parse_tokens_found_holds_in {error : SyntaxError} (scanned : tokenize source = .ok tokens)
    (failed : parseTokens tokens = .error error) :
    error.found ∈ tokens ∧ error.found.place.HoldsIn source error.found.kind.text.toList := by
  obtain ⟨_, closed⟩ := tokenize_spelled scanned
  have listed := parse_tokens_found closed failed
  exact ⟨listed, (tokenize_places scanned).2 _ listed⟩

/-- The diagnostic for a wrong token quotes it. -/
theorem Rejection.diagnostic?_of_syntax_error {error : SyntaxError}
    (scanned : tokenize source = .ok tokens) (failed : parseTokens tokens = .error error) :
    (Rejection.ofSyntaxError error).diagnostic? source =
      some ⟨.syntactic, error.message, error.found.place.position, error.found.kind.text,
        some error.found.place.span⟩ :=
  congrArg some (Rejection.located_of_holds_in (parse_tokens_found_holds_in scanned failed).2 _ _)

end Rejections

/-! ## Diagnostics -/

/-- The diagnostic points at this part of the source, and quotes it if it is of such a kind. -/
structure Diagnostic.PointsAt (source : List Char) (diagnostic : Diagnostic) (span : Span)
    (part : List Char) : Prop where
  spanned : diagnostic.span = some span
  forward : span.start ≤ span.stop
  inside : span.stop ≤ Bytes.size source
  cut : span.HoldsIn source part
  quoted : diagnostic.kind.quotes = true → diagnostic.entity = String.ofList part ∧
    diagnostic.position = (Lines.ofText source).position span.start

section Diagnostics

variable {source : List Char} {tokens : List Token} {program : Program}

theorem Diagnostic.points_at_of_holds_in {place : Place} {text : String}
    (holds : place.HoldsIn source text.toList) (kind : DiagnosticKind) (message : String) :
    Diagnostic.PointsAt source ⟨kind, message, place.position, text, some place.span⟩ place.span
      text.toList := by
  obtain ⟨forward, inside⟩ := holds.spanned.bounds
  refine ⟨rfl, forward, inside, holds.spanned, ?_⟩
  intro _
  exact ⟨String.ofList_toList.symm, holds.position_eq⟩

/-- A fault that points into the tree of a program points at a part of its text. -/
theorem Fault.PointsInto.diagnostic {fault : Fault} (scanned : tokenize source = .ok tokens)
    (parsed : parseTokens tokens = .ok program)
    (points : fault.PointsInto (program.map .stmt)) :
    (∃ span part, fault.diagnostic.PointsAt source span part) ∧
      ∃ token ∈ tokens, fault.diagnostic.position = token.place.position := by
  obtain ⟨_, closed⟩ := tokenize_spelled scanned
  have parts := parse_tokens_parts closed parsed
  constructor
  · cases quotes : fault.kind.quotes with
    | true =>
        obtain ⟨node, under, written, span, position⟩ := points.quoted quotes
        obtain ⟨segment, run, stands⟩ := parts.exists_run under
        have holds := stands.holds_in scanned run written
        have shape : fault.diagnostic =
            ⟨fault.kind, fault.message, node.place.position, fault.entity, some node.place.span⟩ := by
          rw [Fault.diagnostic, span, position]
        rw [shape]
        exact ⟨_, _, Diagnostic.points_at_of_holds_in holds _ _⟩
    | false =>
        obtain ⟨node, under, span⟩ := points.spanned
        obtain ⟨segment, run, stands⟩ := parts.exists_run under
        obtain ⟨⟨text, holds⟩, _⟩ := stands.located scanned run
        obtain ⟨forward, inside⟩ := holds.bounds
        refine ⟨node.place.span, text, ?_, forward, inside, holds, ?_⟩
        · rw [Fault.diagnostic, span]
        · intro also
          exact absurd also (by rw [Fault.diagnostic, quotes]; exact Bool.false_ne_true)
  · obtain ⟨node, under, position⟩ := points.positioned
    obtain ⟨segment, run, stands⟩ := parts.exists_run under
    rcases position with starts | noted
    · obtain ⟨_, token, member, same⟩ := stands.located scanned run
      exact ⟨token, member, starts.trans same⟩
    · obtain ⟨token, member, same⟩ := stands.noted _ noted
      exact ⟨token, run.subset member, same.symm⟩

end Diagnostics

/-- Every diagnostic of a compilation points at a part of the source. It says the position where a
token starts, or where the bad text does, and the text of every rejection can be cut out. -/
theorem compile_diagnostics_located (settings : Settings) (source : List Char) :
    (∀ diagnostic ∈ (compile settings source).diagnostics,
      (∃ span part, diagnostic.PointsAt source span part) ∧
      ((∃ tokens token, tokenize source = .ok tokens ∧ token ∈ tokens ∧
          diagnostic.position = (Lines.ofText source).position token.place.span.start) ∨
        ∃ bad, tokenize source = .error bad ∧ diagnostic.kind = .lexical ∧
          diagnostic.position = (Lines.ofText source).position bad.place.span.start)) ∧
    ∀ rejection, Source.program source = .error rejection →
      ∃ place part, rejection.place? = some place ∧
        Bytes.slice? source place.span = some part := by
  cases scanned : tokenize source with
  | error bad =>
      have holds := tokenize_bad_place scanned
      rw [compile_of_bad_text scanned, Source.program_of_bad_text scanned, Compilation.stopped,
        Rejection.diagnostic?_of_bad_text scanned]
      constructor
      · refine List.forall_mem_singleton.mpr ⟨?_, .inr ⟨bad, rfl, rfl, holds.position_eq⟩⟩
        exact ⟨_, _, Diagnostic.points_at_of_holds_in holds _ _⟩
      · intro rejection failed
        cases failed
        exact ⟨bad.place, _, rfl, holds.slice?⟩
  | ok tokens =>
      obtain ⟨_, places⟩ := tokenize_places scanned
      cases parsed : parseTokens tokens with
      | error error =>
          obtain ⟨listed, holds⟩ := parse_tokens_found_holds_in scanned parsed
          rw [compile_of_syntax_error scanned parsed, Source.program_of_syntax_error scanned parsed,
            Compilation.stopped, Rejection.diagnostic?_of_syntax_error scanned parsed]
          constructor
          · refine List.forall_mem_singleton.mpr ⟨?_, .inl ⟨tokens, _, rfl, listed, ?_⟩⟩
            · exact ⟨_, _, Diagnostic.points_at_of_holds_in holds _ _⟩
            · exact holds.position_eq
          · intro rejection failed
            cases failed
            exact ⟨error.found.place, _, rfl, holds.slice?⟩
      | ok program =>
          rw [compile_of_program scanned parsed,
            Source.program_eq_ok_iff.mpr ⟨tokens, scanned, parsed⟩]
          constructor
          · intro diagnostic member
            obtain ⟨fault, found, rfl⟩ := List.mem_map.mp member
            obtain ⟨points, token, listed, same⟩ :=
              (program.check_points fault found).diagnostic scanned parsed
            refine ⟨points, .inl ⟨tokens, token, rfl, listed, ?_⟩⟩
            rw [same, (places token listed).position_eq]
          · intro rejection failed
            cases failed

/-- The undeclared name stands behind a character of two bytes. -/
def accentedText : List Char :=
  "let a : Int; output(\"é\"); b := a;".toList

def unfinishedText : List Char :=
  "a := \"é\"".toList

theorem compile_diagnostics_located_accented_text :
    (∃ diagnostic ∈ (compile default accentedText).diagnostics,
      diagnostic.entity = "b" ∧ diagnostic.span = some ⟨27, 28⟩ ∧
      diagnostic.position = ⟨1, 27⟩ ∧ ∃ span part, diagnostic.PointsAt accentedText span part) ∧
    ∃ rejection place part, Source.program unfinishedText = .error rejection ∧
      rejection.place? = some place ∧ Bytes.slice? unfinishedText place.span = some part := by
  constructor
  · have found : (⟨.undeclaredIdentifier, "'b' is not declared", ⟨1, 27⟩, "b", some ⟨27, 28⟩⟩ :
        Diagnostic) ∈ (compile default accentedText).diagnostics := by
      decide +kernel
    exact ⟨_, found, rfl, rfl, rfl,
      ((compile_diagnostics_located default accentedText).1 _ found).1⟩
  · have failed : (Source.program unfinishedText).isOk = false := by
      decide +kernel
    cases parsed : Source.program unfinishedText with
    | ok program =>
        rw [parsed] at failed
        cases failed
    | error rejection =>
        obtain ⟨place, part, placed, sliced⟩ :=
          (compile_diagnostics_located default unfinishedText).2 rejection parsed
        exact ⟨rejection, place, part, rfl, placed, sliced⟩

end ThreeAddress
