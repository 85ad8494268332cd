import Mathlib.Data.List.Perm.Subperm
import ScriptLint.Proofs.Phrase.Spans

/-!
# Laying nodes over tokens

A node is placed well over a list of tokens if it runs from the start of a token to the end of one,
holds its children, and its children keep apart from each other. `Node.Laid tokens nodes` says that
the tokens, if they are in order, have the nodes laid over them one behind the other, each of them
well placed with all its parts. Nodes over tokens that follow each other are laid over all of them,
and nodes that have been laid may be joined under a new one. A token counts as a node of its own
while the phrase it belongs to is put together.
-/

namespace ScriptLint

namespace Node

variable {tokens left right : List Token} {node child : Node} {nodes more : List Node}

/-! ## Placement -/

/-- The first node ends before the second begins. -/
def Before (first second : Node) : Prop :=
  first.span.stop ≤ second.span.start

/-- The nodes have no character in common. -/
def Apart (first second : Node) : Prop :=
  first.Before second ∨ second.Before first

/-- The node runs over whole tokens, holds its children, keeps them apart, and has those of a list
in the order of the text. -/
structure Placed (tokens : List Token) (node : Node) : Prop where
  nonempty : node.span.start < node.span.stop
  starts : ∃ token ∈ tokens, token.span.start = node.span.start
  stops : ∃ token ∈ tokens, token.span.stop = node.span.stop
  contains : ∀ child ∈ node.children,
    node.span.start ≤ child.span.start ∧ child.span.stop ≤ node.span.stop
  apart : node.children.Pairwise Apart
  ordered : node.sequence.Pairwise Before

/-- A node that is placed well has a span among the tokens. -/
theorem Placed.among (h : node.Placed tokens) : node.span.Among tokens :=
  ⟨h.nonempty, h.starts, h.stops⟩

/-- A node that is placed well over some of the tokens is so over all of them. -/
theorem Placed.mono (h : node.Placed tokens) (hsub : tokens ⊆ left) : node.Placed left :=
  have hamong := h.among.mono hsub
  ⟨h.nonempty, hamong.starts, hamong.stops, h.contains, h.apart, h.ordered⟩

/-- The first of the children stands in front of the others, the default arm of a `match` among
them. -/
def Led (node : Node) : Prop :=
  ∀ first rest, node.children = first :: rest → ∀ other ∈ rest, first.Before other

/-- Children in order are led by the first of them. -/
theorem led_of_pairwise (h : node.children.Pairwise Before) : node.Led := by
  intro first rest hchildren
  rw [hchildren] at h
  exact (List.pairwise_cons.1 h).1

/-- The node is well placed and led by its first child, and so are all nodes inside it. -/
def Sits (tokens : List Token) (node : Node) : Prop :=
  ∀ part, node.HasPart part → part.Placed tokens ∧ part.Led

/-- A node that sits over the tokens is placed well. -/
theorem Sits.placed (h : node.Sits tokens) : node.Placed tokens :=
  (h node (.self node)).1

/-- A node that sits over the tokens is led by its first child. -/
theorem Sits.led (h : node.Sits tokens) : node.Led :=
  (h node (.self node)).2

/-- The children of a node sit over the tokens as it does. -/
theorem Sits.inside (h : node.Sits tokens) (hchild : child ∈ node.children) : child.Sits tokens :=
  fun part hpart => h part (.child hchild hpart)

/-- A node that sits over some of the tokens does so over all of them. -/
theorem Sits.mono (h : node.Sits tokens) (hsub : tokens ⊆ left) : node.Sits left :=
  fun part hpart => ⟨(h part hpart).1.mono hsub, (h part hpart).2⟩

/-- A node that is placed well and led sits over the tokens if its children do. -/
theorem Placed.sits (h : node.Placed tokens) (hled : node.Led)
    (hchildren : ∀ child ∈ node.children, child.Sits tokens) : node.Sits tokens := by
  intro part hpart
  cases hpart with
  | self => exact ⟨h, hled⟩
  | child hchild hpart => exact hchildren _ hchild part hpart

/-! ## Laying -/

/-- If the tokens are in order, the nodes sit over them, one behind the other. -/
def Laid (tokens : List Token) (nodes : List Node) : Prop :=
  Token.InOrder tokens → (∀ node ∈ nodes, node.Sits tokens) ∧ nodes.Pairwise Before

namespace Laid

/-- Nothing is laid over tokens that have no node. -/
theorem nil (tokens : List Token) : Laid tokens [] :=
  fun _ => ⟨by simp, .nil⟩

/-- Nodes over tokens on the left stand in front of those on the right. -/
theorem append (hleft : Laid left nodes) (hright : Laid right more) :
    Laid (left ++ right) (nodes ++ more) := by
  intro hordered
  obtain ⟨hnodes, hfirst⟩ := hleft hordered.of_append_left
  obtain ⟨hmore, hsecond⟩ := hright hordered.of_append_right
  refine ⟨List.forall_mem_append.2 ⟨?_, ?_⟩, List.pairwise_append.2 ⟨hfirst, hsecond, ?_⟩⟩
  · exact fun node hnode => (hnodes node hnode).mono (List.subset_append_left left right)
  · exact fun node hnode => (hmore node hnode).mono (List.subset_append_right left right)
  · intro first hmem second hmem'
    exact (hnodes first hmem).placed.among.le (hmore second hmem').placed.among hordered

/-- A token in front of the others may have no node. -/
theorem behind (h : Laid tokens nodes) (token : Token) : Laid (token :: tokens) nodes :=
  (Laid.nil [token]).append h

/-- Tokens behind the others may have no node. -/
theorem before (h : Laid tokens nodes) (more : List Token) : Laid (tokens ++ more) nodes := by
  simpa using h.append (Laid.nil more)

/-- The nodes over a single token are those without children and with its span. -/
theorem leaf {token : Token} (hspan : node.span = token.span) (hchildren : node.children = [])
    (hsequence : node.sequence = []) : Laid [token] [node] := by
  intro hordered
  have hamong := hspan ▸ Span.Among.of_token hordered (List.mem_singleton_self token)
  have hplaced : node.Placed [token] :=
    ⟨hamong.nonempty, hamong.starts, hamong.stops, by simp [hchildren], by simp [hchildren],
      by simp [hsequence]⟩
  have hled : node.Led := led_of_pairwise (by simp [hchildren])
  exact ⟨List.forall_mem_singleton.2 (hplaced.sits hled (by simp [hchildren])),
    List.pairwise_singleton _ _⟩

/-- Nodes that have been laid may be put under a new one that begins where a token begins, ends
where one ends, and holds them. -/
theorem enclose (h : Laid tokens nodes)
    (hspan : Token.InOrder tokens → node.span.Among tokens ∧ ∀ item ∈ nodes,
      node.span.start ≤ item.span.start ∧ item.span.stop ≤ node.span.stop)
    (hchildren : node.children.Subperm nodes) (hsequence : node.sequence.Sublist nodes)
    (hled : nodes.Pairwise Before → node.Led) : Laid tokens [node] := by
  intro hordered
  obtain ⟨hsits, hbefore⟩ := h hordered
  obtain ⟨hamong, hwithin⟩ := hspan hordered
  -- The default arm of a `match` may stand before the others, so the children are only apart.
  have hapart : node.children.Pairwise Apart := by
    obtain ⟨items, hperm, hsub⟩ := hchildren
    exact hperm.pairwise ((hbefore.sublist hsub).imp .inl) Or.symm
  have hplaced : node.Placed tokens :=
    ⟨hamong.nonempty, hamong.starts, hamong.stops,
      fun child hchild => hwithin child (hchildren.subset hchild), hapart,
      hbefore.sublist hsequence⟩
  have hinside : node.Sits tokens :=
    hplaced.sits (hled hbefore) fun child hchild => hsits child (hchildren.subset hchild)
  exact ⟨List.forall_mem_singleton.2 hinside, List.pairwise_singleton _ _⟩

/-- A node over all of the tokens, with children that need not be in order. -/
theorem coverAny (h : Laid tokens nodes) (hne : tokens ≠ [])
    (hspan : node.span = Span.ofTokens tokens) (hchildren : node.children.Subperm nodes)
    (hsequence : node.sequence.Sublist nodes) (hled : nodes.Pairwise Before → node.Led) :
    Laid tokens [node] := by
  refine h.enclose (fun hordered => ?_) hchildren hsequence hled
  rw [hspan]
  exact ⟨.ofTokens hordered hne,
    fun item hitem => ((h hordered).1 item hitem).placed.among.within hordered⟩

/-- A node over all of the tokens. -/
theorem cover (h : Laid tokens nodes) (hne : tokens ≠ [])
    (hspan : node.span = Span.ofTokens tokens) (hchildren : node.children = nodes)
    (hsequence : node.sequence = nodes) : Laid tokens [node] := by
  refine h.coverAny hne hspan ?_ ?_ fun hbefore => led_of_pairwise ?_
  · rw [hchildren]
  · rw [hsequence]
  · rwa [hchildren]

/-- A node from the start of the first item to the end of the last one. -/
theorem join {first last : Node} {between : List Node}
    (h : Laid tokens (first :: (between ++ [last])))
    (hstart : node.span.start = first.span.start)
    (hstop : first.span.start ≤ last.span.stop → node.span.stop = last.span.stop)
    (hchildren : node.children.Sublist (first :: (between ++ [last])))
    (hsequence : node.sequence = node.children) : Laid tokens [node] := by
  refine h.enclose (fun hordered => ?_) hchildren.subperm (hsequence ▸ hchildren)
    fun hbefore => led_of_pairwise (hbefore.sublist hchildren)
  obtain ⟨hsits, hbefore⟩ := h hordered
  rw [List.pairwise_cons, List.pairwise_append] at hbefore
  obtain ⟨hbehind, -, -, hinfront⟩ := hbefore
  have hfirst := (hsits first List.mem_cons_self).placed.among
  have hlast := (hsits last (by simp)).placed.among
  have hle : first.span.stop ≤ last.span.start := hbehind last (by simp)
  have hlong := hfirst.nonempty
  have hlong' := hlast.nonempty
  have hend := hstop (by omega)
  refine ⟨⟨by omega, hstart ▸ hfirst.starts, hend ▸ hlast.stops⟩, fun item hitem => ?_⟩
  have hnonempty := (hsits item hitem).placed.nonempty
  rw [hstart, hend]
  rcases List.mem_cons.1 hitem with rfl | hmem
  · omega
  have hleft : first.span.stop ≤ item.span.start := hbehind item hmem
  rcases List.mem_append.1 hmem with hmem | hmem
  · have hright : item.span.stop ≤ last.span.start := hinfront item hmem last (by simp)
    omega
  · rw [List.mem_singleton.1 hmem]
    omega

/-- A node whose span is that of its two items together. -/
theorem hull {first second : Node} (h : Laid tokens [first, second])
    (hspan : node.span = first.span.hull second.span)
    (hchildren : node.children.Sublist [first, second])
    (hsequence : node.sequence = node.children) : Laid tokens [node] := by
  intro hordered
  obtain ⟨hsits, hbefore⟩ := h hordered
  have hle : first.span.stop ≤ second.span.start :=
    (List.pairwise_cons.1 hbefore).1 second (by simp)
  have hfirst := (hsits first (by simp)).placed.nonempty
  have hsecond := (hsits second (by simp)).placed.nonempty
  refine @join _ node first second [] h ?_ (fun _ => ?_) hchildren hsequence hordered
  · rw [hspan, Span.hull_start]
    omega
  · rw [hspan, Span.hull_stop]
    omega

/-- The parts of a list that is separated by commas are laid one behind the other. -/
theorem separated {ι : Type} {tokensOf : ι → List Token} {parts : List ι} {nodeOf : ι → Node}
    (h : Separated tokensOf parts tokens)
    (hparts : ∀ part ∈ parts, Laid (tokensOf part) [nodeOf part]) :
    Laid tokens (parts.map nodeOf) := by
  induction h with
  | none => exact .nil []
  | last part => exact hparts part List.mem_cons_self
  | @more part parts comma rest hcomma hrest ih =>
      have hothers := ih fun other hother => hparts other (List.mem_cons_of_mem _ hother)
      exact (hparts part List.mem_cons_self).append (hothers.behind comma)

end Laid

end Node

/-- A token as a node of its own. -/
def Token.node (token : Token) : Node :=
  .name ⟨token.value, token.span⟩

/-- A token is laid as a node of its own. -/
theorem Token.laid (token : Token) : Node.Laid [token] [token.node] :=
  .leaf rfl rfl rfl

/-- A token sits over the tokens that it is one of. -/
theorem Token.InOrder.sits {tokens : List Token} (h : Token.InOrder tokens) {token : Token}
    (hmem : token ∈ tokens) : token.node.Sits tokens := by
  have hsits := (token.laid (h.sublist (List.singleton_sublist.2 hmem))).1 _ List.mem_cons_self
  exact hsits.mono (by simpa using hmem)

end ScriptLint
