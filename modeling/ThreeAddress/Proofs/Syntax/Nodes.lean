import ThreeAddress.Proofs.Syntax.Readings
import ThreeAddress.Proofs.Token.Placement

/-!
# The nodes of a tree and the tokens they stand on

A node stands on a run of tokens: it is written with exactly these, its place reaches from the
start of the first to the end of the last of them, and the nodes directly below it stand on
separate parts of the run, in its order. So all nodes of a tree stand on runs of its tokens, and
places are nested as the nodes are.
-/

namespace ThreeAddress

set_option autoImplicit false

/-! ## Places around tokens -/

def Token.EndsWith (tokens : List Token) (last : Span) : Prop :=
  tokens.getLast?.map (·.place.span) = some last

/-- The place reaches from the start of the first token to the end of the last one. -/
structure Place.Around (tokens : List Token) (place : Place) : Prop where
  start : tokens.head?.map (·.place.span.start) = some place.span.start
  stop : tokens.getLast?.map (·.place.span.stop) = some place.span.stop
  position : tokens.head?.map (·.place.position) = some place.position

namespace Token

variable {tokens front rest : List Token} {first last : Token} {span : Span}

theorem ends_with_single (token : Token) : EndsWith [token] token.place.span := rfl

theorem EndsWith.append (ends : EndsWith tokens span) (front : List Token) :
    EndsWith (front ++ tokens) span := by
  cases tokens with
  | nil => cases ends
  | cons first rest =>
      rw [EndsWith, List.getLast?_append_cons]
      exact ends

theorem EndsWith.exists_mem (ends : EndsWith tokens span) :
    ∃ token ∈ tokens, tokens.getLast? = some token ∧ token.place.span = span := by
  obtain ⟨token, last, same⟩ := Option.map_eq_some_iff.mp ends
  exact ⟨token, List.mem_of_getLast? last, last, same⟩

/-- The first of ordered tokens starts and ends before all others do. -/
theorem InOrder.first_le (ordered : InOrder (first :: rest)) {token : Token}
    (member : token ∈ first :: rest) :
    first.place.span.start ≤ token.place.span.start ∧
      first.place.span.stop ≤ token.place.span.stop := by
  rcases List.mem_cons.mp member with rfl | later
  · exact ⟨le_rfl, le_rfl⟩
  · have forward := ordered.forward first List.mem_cons_self
    have apart := (List.pairwise_cons.mp ordered.apart).1 token later
    have inside := ordered.forward token member
    omega

theorem InOrder.le_last (ordered : InOrder (front ++ [last])) {token : Token}
    (member : token ∈ front ++ [last]) : token.place.span.stop ≤ last.place.span.stop := by
  rcases List.mem_append.mp member with earlier | here
  · have apart := (List.pairwise_append.mp ordered.apart).2.2 token earlier last
      List.mem_cons_self
    have inside := ordered.forward last (List.mem_append_right _ List.mem_cons_self)
    omega
  · cases List.mem_singleton.mp here
    exact le_rfl

end Token

namespace Place

open Token

variable {tokens before behind : List Token} {place left right : Place}

theorem Around.exists_first (around : place.Around tokens) :
    ∃ first rest, tokens = first :: rest ∧ place.span.start = first.place.span.start ∧
      place.position = first.place.position := by
  cases tokens with
  | nil => cases around.start
  | cons first rest =>
      exact ⟨first, rest, rfl, (Option.some.inj around.start).symm,
        (Option.some.inj around.position).symm⟩

theorem Around.exists_last (around : place.Around tokens) :
    ∃ front last, tokens = front ++ [last] ∧ place.span.stop = last.place.span.stop := by
  obtain ⟨last, ends, same⟩ := Option.map_eq_some_iff.mp around.stop
  obtain ⟨front, whole⟩ := List.getLast?_eq_some_iff.mp ends
  exact ⟨front, last, whole, same.symm⟩

theorem Around.unique (first : left.Around tokens) (second : right.Around tokens) :
    left = right := by
  obtain ⟨⟨low, high⟩, here⟩ := left
  obtain ⟨⟨start, stop⟩, there⟩ := right
  have lows : low = start := Option.some.inj (first.start.symm.trans second.start)
  have highs : high = stop := Option.some.inj (first.stop.symm.trans second.stop)
  have positions : here = there := Option.some.inj (first.position.symm.trans second.position)
  rw [lows, highs, positions]

/-- All tokens lie within a place around them. -/
theorem Around.bounds (around : place.Around tokens) (ordered : InOrder tokens) {token : Token}
    (member : token ∈ tokens) :
    place.span.start ≤ token.place.span.start ∧ token.place.span.stop ≤ place.span.stop := by
  obtain ⟨first, rest, shape, start, _⟩ := around.exists_first
  obtain ⟨front, last, split, stop⟩ := around.exists_last
  constructor
  · rw [start]
    exact (InOrder.first_le (shape ▸ ordered) (shape ▸ member)).1
  · rw [stop]
    exact InOrder.le_last (split ▸ ordered) (split ▸ member)

theorem Around.start_le_stop (around : place.Around tokens) (ordered : InOrder tokens) :
    place.span.start ≤ place.span.stop := by
  obtain ⟨first, rest, rfl, _⟩ := around.exists_first
  have bounds := around.bounds ordered List.mem_cons_self
  have forward := ordered.forward first List.mem_cons_self
  omega

/-- A place around some of the tokens lies within a place around all of them. -/
theorem Around.inside {inner : Place} (around : place.Around tokens) (ordered : InOrder tokens)
    {segment : List Token} (part : segment.Sublist tokens) (within : inner.Around segment) :
    place.span.start ≤ inner.span.start ∧ inner.span.stop ≤ place.span.stop := by
  obtain ⟨first, rest, shape, start, _⟩ := within.exists_first
  obtain ⟨front, last, split, stop⟩ := within.exists_last
  have opens : first ∈ segment := shape ▸ List.mem_cons_self
  have closes : last ∈ segment := split ▸ List.mem_append_right _ List.mem_cons_self
  rw [start, stop]
  exact ⟨(around.bounds ordered (part.subset opens)).1,
    (around.bounds ordered (part.subset closes)).2⟩

/-- Places around tokens that follow one another do not overlap. -/
theorem Around.apart (ordered : InOrder (before ++ behind)) (first : left.Around before)
    (second : right.Around behind) : left.span.stop ≤ right.span.start := by
  obtain ⟨front, last, rfl, stop⟩ := first.exists_last
  obtain ⟨next, rest, rfl, start, _⟩ := second.exists_first
  rw [stop, start]
  exact (List.pairwise_append.mp ordered.apart).2.2 last
    (List.mem_append_right _ List.mem_cons_self) next List.mem_cons_self

theorem around_single (token : Token) : token.place.Around [token] :=
  ⟨rfl, rfl, rfl⟩

theorem around_up_to {first : Token} {rest : List Token} {last : Span}
    (ordered : InOrder (first :: rest)) (ends : EndsWith (first :: rest) last) :
    (first.place.upTo last).Around (first :: rest) := by
  obtain ⟨token, member, final, rfl⟩ := ends.exists_mem
  obtain ⟨starts, stops⟩ := ordered.first_le member
  refine ⟨?_, ?_, rfl⟩
  · simp [upTo, Span.merge, Nat.min_eq_left starts]
  · rw [final]
    simp [upTo, Span.merge, Nat.max_eq_right stops]

theorem around_join (middle : List Token) (ordered : InOrder (before ++ (middle ++ behind)))
    (first : left.Around before) (second : right.Around behind) :
    (left.join right).Around (before ++ (middle ++ behind)) := by
  have kept : (before ++ behind).Sublist (before ++ (middle ++ behind)) :=
    (List.sublist_append_right middle behind).append_left before
  have apart := Around.apart (ordered.sublist kept) first second
  have forward := first.start_le_stop (ordered.sublist (List.sublist_append_left _ _))
  have onward := second.start_le_stop
    (ordered.sublist ((List.sublist_append_right _ _).trans kept))
  obtain ⟨opening, rest, rfl, start, position⟩ := first.exists_first
  obtain ⟨front, closing, rfl, stop⟩ := second.exists_last
  refine ⟨?_, ?_, ?_⟩
  · simp only [join, upTo, Span.merge, List.cons_append, List.head?_cons, Option.map_some,
      ← start, Option.some.injEq]
    omega
  · simp only [join, upTo, Span.merge, ← List.append_assoc, List.getLast?_concat,
      Option.map_some, ← stop, Option.some.injEq]
    omega
  · simp [join, upTo, position]

end Place

/-! ## Nodes -/

inductive Node where
  | ident (name : Ident)
  | expr (value : Expr)
  | cond (test : Cond)
  | stmt (statement : Stmt)

namespace Node

def place : Node → Place
  | .ident name => name.place
  | .expr value => value.place
  | .cond test => test.place
  | .stmt statement => statement.place

def unparse : Node → List TokenKind
  | .ident name => [name.kind]
  | .expr value => value.unparse
  | .cond test => test.unparse
  | .stmt statement => statement.unparse

def children : Node → List Node
  | .ident _ | .expr (.identifier ..) | .expr (.integer ..) | .expr (.float ..) => []
  | .expr (.element array index _) => [.ident array, .expr index]
  | .expr (.paren inner _) | .expr (.negate inner _) => [.expr inner]
  | .expr (.binary _ left right _) | .cond (.compare _ _ left right _) =>
      [.expr left, .expr right]
  | .cond (.and left right _) | .cond (.or left right _) => [.cond left, .cond right]
  | .cond (.not inner _) | .cond (.paren inner _) => [.cond inner]
  | .stmt (.scalar name _ _) | .stmt (.array name _ _ _ _) | .stmt (.input name _) =>
      [.ident name]
  | .stmt (.constant name _ _ value _) | .stmt (.assign name value _) =>
      [.ident name, .expr value]
  | .stmt (.ifThen condition body _) => .cond condition :: body.map .stmt
  | .stmt (.ifElse condition body otherwise _) =>
      .cond condition :: (body.map .stmt ++ otherwise.map .stmt)
  | .stmt (.doWhile body condition _) => body.map .stmt ++ [.cond condition]
  | .stmt (.forLoop counter first last step body _) =>
      .ident counter :: .expr first :: .expr last :: .expr step :: body.map .stmt
  | .stmt (.output _ names _) => names.map .ident

/-- The positions that a node keeps beside its place: those of an operator, a size or a type. -/
def notes : Node → List Position
  | .cond (.compare _ position _ _ _) | .stmt (.array _ _ _ position _)
  | .stmt (.constant _ _ position _ _) => [position]
  | _ => []

inductive Under (roots : List Node) : Node → Prop
  | root {node : Node} : node ∈ roots → Under roots node
  | child {node child : Node} : Under roots node → child ∈ node.children → Under roots child

/-- Nodes stand on parts of the tokens, in their order, with tokens of no node between them. -/
inductive Parts (stands : List Token → Node → Prop) : List Token → List Node → Prop
  | nil : Parts stands [] []
  | skip (token : Token) {tokens : List Token} {nodes : List Node} :
      Parts stands tokens nodes → Parts stands (token :: tokens) nodes
  | node {segment tokens : List Token} {node : Node} {nodes : List Node} :
      stands segment node → Parts stands tokens nodes →
      Parts stands (segment ++ tokens) (node :: nodes)

/-- The node stands on exactly these tokens. -/
inductive StandsOn : List Token → Node → Prop
  | intro {tokens : List Token} {node : Node} :
      Token.kinds tokens = node.unparse →
      (Token.InOrder tokens → node.place.Around tokens) →
      (∀ position ∈ node.notes, ∃ token ∈ tokens, token.place.position = position) →
      Parts StandsOn tokens node.children → StandsOn tokens node

section StandsOn

variable {tokens : List Token} {node : Node}

theorem StandsOn.written (stands : node.StandsOn tokens) :
    Token.kinds tokens = node.unparse := by
  cases stands with
  | intro written around noted parts => exact written

theorem StandsOn.around (stands : node.StandsOn tokens) (ordered : Token.InOrder tokens) :
    node.place.Around tokens := by
  cases stands with
  | intro written around noted parts => exact around ordered

theorem StandsOn.noted (stands : node.StandsOn tokens) :
    ∀ position ∈ node.notes, ∃ token ∈ tokens, token.place.position = position := by
  cases stands with
  | intro written around noted parts => exact noted

theorem StandsOn.parts (stands : node.StandsOn tokens) :
    Parts StandsOn tokens node.children := by
  cases stands with
  | intro written around noted parts => exact parts

end StandsOn

namespace Parts

variable {stands : List Token → Node → Prop} {tokens others : List Token} {nodes more : List Node}

theorem skip_all (parts : Parts stands tokens nodes) (between : List Token) :
    Parts stands (between ++ tokens) nodes := by
  induction between with
  | nil => exact parts
  | cons token between ih => exact ih.skip token

theorem append (first : Parts stands tokens nodes) (second : Parts stands others more) :
    Parts stands (tokens ++ others) (nodes ++ more) := by
  induction first with
  | nil => exact second
  | skip token _ ih => exact ih.skip token
  | node here _ ih =>
      rw [List.append_assoc]
      exact ih.node here

theorem single {node : Node} (here : stands tokens node) : Parts stands tokens [node] := by
  have alone := Parts.nil.node here
  rwa [List.append_nil] at alone

/-- Each of the nodes has its part of the tokens. -/
theorem exists_segment (parts : Parts stands tokens nodes) {node : Node} (member : node ∈ nodes) :
    ∃ segment, segment <:+: tokens ∧ stands segment node := by
  induction parts with
  | nil => cases member
  | skip token _ ih =>
      obtain ⟨segment, part, here⟩ := ih member
      exact ⟨segment, List.infix_cons part, here⟩
  | @node segment tokens first nodes here _ ih =>
      rcases List.mem_cons.mp member with rfl | later
      · exact ⟨segment, (List.prefix_append _ _).isInfix, here⟩
      · obtain ⟨other, part, there⟩ := ih later
        exact ⟨other, part.trans (List.suffix_append _ _).isInfix, there⟩

/-- The places of nodes on ordered tokens follow one another. -/
theorem pairwise (parts : Parts StandsOn tokens nodes) (ordered : Token.InOrder tokens) :
    nodes.Pairwise fun first second => first.place.span.stop ≤ second.place.span.start := by
  induction parts with
  | nil => exact .nil
  | skip token _ ih => exact ih (ordered.sublist (List.sublist_cons_self _ _))
  | @node segment tokens first nodes here behind ih =>
      refine .cons ?_ (ih (ordered.sublist (List.sublist_append_right _ _)))
      intro second member
      obtain ⟨other, part, there⟩ := behind.exists_segment member
      have kept := ordered.sublist (part.sublist.append_left segment)
      exact Place.Around.apart kept
        (here.around (kept.sublist (List.sublist_append_left _ _)))
        (there.around (kept.sublist (List.sublist_append_right _ _)))

/-- Every node of the trees stands on a run of the tokens of their roots. -/
theorem exists_run (parts : Parts StandsOn tokens nodes) {node : Node} (under : Under nodes node) :
    ∃ segment, segment <:+: tokens ∧ node.StandsOn segment := by
  induction under with
  | root member => exact parts.exists_segment member
  | child _ member ih =>
      obtain ⟨segment, part, here⟩ := ih
      obtain ⟨inner, within, there⟩ := here.parts.exists_segment member
      exact ⟨inner, within.trans part, there⟩

end Parts

/-- A node holds its children, in their order. -/
theorem StandsOn.nested {tokens : List Token} {node : Node} (stands : node.StandsOn tokens)
    (ordered : Token.InOrder tokens) :
    (∀ child ∈ node.children, node.place.span.start ≤ child.place.span.start ∧
        child.place.span.stop ≤ node.place.span.stop) ∧
      node.children.Pairwise fun first second =>
        first.place.span.stop ≤ second.place.span.start := by
  refine ⟨?_, stands.parts.pairwise ordered⟩
  intro child member
  obtain ⟨segment, part, there⟩ := stands.parts.exists_segment member
  exact (stands.around ordered).inside ordered part.sublist
    (there.around (ordered.sublist part.sublist))

end Node

def Program.HasNode (program : Program) (node : Node) : Prop :=
  Node.Under (program.map .stmt) node

end ThreeAddress
