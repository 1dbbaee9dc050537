import Mathlib.Logic.Relation
import Tyrne.Lib.LinkedList

/-!
# Forests threaded through a store

Each occupied node of a store carries a link to its parent, to the first of its
children and to its next sibling, and its distance from the root. The module
states when such links really form a forest and shows that the four ways of
changing it keep that: adding a root, adding a first child, removing a leaf and
pruning everything below a node. It also follows the breadth-first sweep that
collects what is below a node.
-/

namespace Tyrne.Lib.SiblingForest

open Tyrne.Lib.LinkedList

set_option autoImplicit false

variable {Node : Type}

/-- The links one occupied node carries. -/
structure Links (Node : Type) where
  parent : Option Node
  first : Option Node
  next : Option Node
  rank : Nat

abbrev Forest (Node : Type) : Type := Node → Option (Links Node)

def parentOf (forest : Forest Node) (node : Node) : Option Node :=
  (forest node).bind Links.parent

def nextOf (forest : Forest Node) (node : Node) : Option Node :=
  (forest node).bind Links.next

/-- The sibling chain from `first` lists exactly the children of `parent`. -/
def Children (forest : Forest Node) (first : Option Node) (parent : Node)
    (kids : List Node) : Prop :=
  Chain (nextOf forest) first kids ∧ kids.Nodup ∧
    ∀ child, child ∈ kids ↔ parentOf forest child = some parent

structure WellLinked (forest : Forest Node) : Prop where
  children : ∀ {node links}, forest node = some links →
    ∃ kids, Children forest links.first node kids
  roots : ∀ {node links}, forest node = some links → links.parent = none →
    links.next = none ∧ links.rank = 0
  ranks : ∀ {node links parent}, forest node = some links →
    links.parent = some parent →
      ∃ above, forest parent = some above ∧ links.rank = above.rank + 1

/-- `node` lies strictly below `root`. -/
def Below (forest : Forest Node) (root node : Node) : Prop :=
  Relation.TransGen (fun child parent => parentOf forest child = some parent) node root

variable {forest : Forest Node}

theorem occupied_of_parent {child parent : Node}
    (link : parentOf forest child = some parent) :
    ∃ links, forest child = some links ∧ links.parent = some parent := by
  cases occupied : forest child with
  | none => simp [parentOf, occupied] at link
  | some links => exact ⟨links, rfl, by simpa [parentOf, occupied] using link⟩

theorem apart_of_vacant {node vacancy : Node} {links : Links Node}
    (occupied : forest node = some links) (vacant : forest vacancy = none) : vacancy ≠ node := by
  intro same
  rw [same, occupied] at vacant
  cases vacant

theorem Children.outside {first : Option Node} {parent node : Node} {kids : List Node}
    (listed : Children forest first parent kids) (link : parentOf forest node ≠ some parent) :
    node ∉ kids :=
  fun member => link ((listed.2.2 node).mp member)

theorem WellLinked.parent_occupied (linked : WellLinked forest) {child parent : Node}
    (link : parentOf forest child = some parent) :
    ∃ above, forest parent = some above := by
  obtain ⟨links, occupied, up⟩ := occupied_of_parent link
  obtain ⟨above, found, _⟩ := linked.ranks occupied up
  exact ⟨above, found⟩

theorem WellLinked.no_child_of_vacant (linked : WellLinked forest) {node : Node}
    (vacant : forest node = none) (child : Node) : parentOf forest child ≠ some node := by
  intro link
  obtain ⟨above, found⟩ := linked.parent_occupied link
  simp [vacant] at found

theorem WellLinked.no_child_of_leaf (linked : WellLinked forest) {node : Node}
    {links : Links Node} (occupied : forest node = some links)
    (leaf : links.first = none) (child : Node) : parentOf forest child ≠ some node := by
  obtain ⟨kids, chain, _, members⟩ := linked.children occupied
  rw [leaf, chain_none] at chain
  subst chain
  intro link
  simpa using (members child).mpr link

/-- A step down raises the rank, so nothing is below itself. -/
theorem WellLinked.rank_lt_of_below (linked : WellLinked forest) {root node : Node}
    (below : Below forest root node) :
    ∀ {top bottom}, forest root = some top → forest node = some bottom →
      top.rank < bottom.rank := by
  unfold Below at below
  induction below with
  | single link =>
      intro top bottom atRoot atNode
      obtain ⟨links, occupied, up⟩ := occupied_of_parent link
      obtain ⟨above, found, step⟩ := linked.ranks occupied up
      rw [atRoot] at found
      rw [atNode] at occupied
      cases found
      cases occupied
      omega
  | tail _ link ih =>
      intro top bottom atRoot atNode
      obtain ⟨links, occupied, up⟩ := occupied_of_parent link
      obtain ⟨above, found, step⟩ := linked.ranks occupied up
      have lower := ih occupied atNode
      rw [atRoot] at found
      cases found
      omega

theorem below_occupied {root node : Node} (below : Below forest root node) :
    ∃ links, forest node = some links := by
  obtain ⟨parent, link, _⟩ := Relation.TransGen.head'_iff.mp below
  obtain ⟨links, occupied, _⟩ := occupied_of_parent link
  exact ⟨links, occupied⟩

theorem WellLinked.not_below_self (linked : WellLinked forest) (node : Node) :
    ¬ Below forest node node := by
  intro below
  obtain ⟨links, occupied⟩ := below_occupied below
  exact absurd (linked.rank_lt_of_below below occupied occupied) (Nat.lt_irrefl _)

theorem below_iff_parent {root child parent : Node}
    (link : parentOf forest child = some parent) :
    Below forest root child ↔ parent = root ∨ Below forest root parent := by
  constructor
  · intro below
    obtain ⟨up, step, rest⟩ := Relation.TransGen.head'_iff.mp below
    rw [link] at step
    cases step
    rcases Relation.reflTransGen_iff_eq_or_transGen.mp rest with same | further
    · exact Or.inl same.symm
    · exact Or.inr further
  · rintro (rfl | further)
    · exact Relation.TransGen.single link
    · exact Relation.TransGen.head link further

section Growing

variable [DecidableEq Node]

def addRoot (forest : Forest Node) (fresh : Node) : Forest Node :=
  Function.update forest fresh (some ⟨none, none, none, 0⟩)

/-- Put a fresh node in front of the children of `parent`, whose links are
`above`. -/
def addChild (forest : Forest Node) (parent fresh : Node) (above : Links Node) :
    Forest Node :=
  Function.update
    (Function.update forest fresh (some ⟨some parent, none, above.first, above.rank + 1⟩))
    parent (some { above with first := some fresh })

theorem next_of_add_root {fresh : Node} (vacant : forest fresh = none) :
    nextOf (addRoot forest fresh) = nextOf forest := by
  funext node
  by_cases same : node = fresh
  · subst same
    simp [nextOf, addRoot, vacant]
  · simp [nextOf, addRoot, same]

theorem parent_of_add_root {fresh : Node} (vacant : forest fresh = none) :
    parentOf (addRoot forest fresh) = parentOf forest := by
  funext node
  by_cases same : node = fresh
  · subst same
    simp [parentOf, addRoot, vacant]
  · simp [parentOf, addRoot, same]

theorem WellLinked.add_root (linked : WellLinked forest) {fresh : Node}
    (vacant : forest fresh = none) : WellLinked (addRoot forest fresh) where
  children := by
    intro node links occupied
    unfold Children
    rw [next_of_add_root vacant, parent_of_add_root vacant]
    by_cases same : node = fresh
    · subst same
      simp only [addRoot, Function.update_self, Option.some.injEq] at occupied
      subst occupied
      exact ⟨[], rfl, List.nodup_nil, fun child => by
        simpa using linked.no_child_of_vacant vacant child⟩
    · rw [addRoot, Function.update_of_ne same] at occupied
      exact linked.children occupied
  roots := by
    intro node links occupied root
    by_cases same : node = fresh
    · subst same
      simp only [addRoot, Function.update_self, Option.some.injEq] at occupied
      subst occupied
      exact ⟨rfl, rfl⟩
    · rw [addRoot, Function.update_of_ne same] at occupied
      exact linked.roots occupied root
  ranks := by
    intro node links parent occupied up
    by_cases same : node = fresh
    · subst same
      simp only [addRoot, Function.update_self, Option.some.injEq] at occupied
      subst occupied
      simp at up
    · rw [addRoot, Function.update_of_ne same] at occupied
      obtain ⟨above, found, rank⟩ := linked.ranks occupied up
      have different := (apart_of_vacant found vacant).symm
      exact ⟨above, by rw [addRoot, Function.update_of_ne different, found], rank⟩

theorem next_of_add_child {parent fresh : Node} {above : Links Node}
    (occupied : forest parent = some above) (vacant : forest fresh = none) :
    nextOf (addChild forest parent fresh above) =
      Function.update (nextOf forest) fresh above.first := by
  have different := apart_of_vacant occupied vacant
  funext node
  by_cases atParent : node = parent
  · subst atParent
    simp [nextOf, addChild, different.symm, occupied]
  · by_cases atFresh : node = fresh
    · subst atFresh
      simp [nextOf, addChild, atParent]
    · simp [nextOf, addChild, atParent, atFresh]

theorem parent_of_add_child {parent fresh : Node} {above : Links Node}
    (occupied : forest parent = some above) (vacant : forest fresh = none) :
    parentOf (addChild forest parent fresh above) =
      Function.update (parentOf forest) fresh (some parent) := by
  have different := apart_of_vacant occupied vacant
  funext node
  by_cases atParent : node = parent
  · subst atParent
    simp [parentOf, addChild, different.symm, occupied]
  · by_cases atFresh : node = fresh
    · subst atFresh
      simp [parentOf, addChild, atParent]
    · simp [parentOf, addChild, atParent, atFresh]

section AddChild

variable {parent fresh : Node} {above : Links Node}

theorem add_child_at_parent : addChild forest parent fresh above parent =
    some { above with first := some fresh } :=
  Function.update_self ..

theorem add_child_at_fresh (different : fresh ≠ parent) :
    addChild forest parent fresh above fresh =
      some ⟨some parent, none, above.first, above.rank + 1⟩ := by
  rw [addChild, Function.update_of_ne different, Function.update_self]

theorem add_child_elsewhere {node : Node} (notParent : node ≠ parent) (notFresh : node ≠ fresh) :
    addChild forest parent fresh above node = forest node := by
  rw [addChild, Function.update_of_ne notParent, Function.update_of_ne notFresh]

theorem add_child_cases (different : fresh ≠ parent) {node : Node} {links : Links Node}
    (found : addChild forest parent fresh above node = some links) :
    (node = fresh ∧ links = ⟨some parent, none, above.first, above.rank + 1⟩) ∨
      (node = parent ∧ links = { above with first := some fresh }) ∨
      (node ≠ parent ∧ node ≠ fresh ∧ forest node = some links) := by
  by_cases isFresh : node = fresh
  · subst isFresh
    rw [add_child_at_fresh different] at found
    exact Or.inl ⟨rfl, (Option.some.inj found).symm⟩
  · by_cases isParent : node = parent
    · subst isParent
      rw [add_child_at_parent] at found
      exact Or.inr (Or.inl ⟨rfl, (Option.some.inj found).symm⟩)
    · rw [add_child_elsewhere isParent isFresh] at found
      exact Or.inr (Or.inr ⟨isParent, isFresh, found⟩)

theorem WellLinked.add_child_children (linked : WellLinked forest)
    (occupied : forest parent = some above) (vacant : forest fresh = none) {node : Node}
    {links : Links Node} (found : addChild forest parent fresh above node = some links) :
    ∃ kids, Children (addChild forest parent fresh above) links.first node kids := by
  have different := apart_of_vacant occupied vacant
  have orphan : ∀ up, parentOf forest fresh ≠ some up := by simp [parentOf, vacant]
  unfold Children
  rw [parent_of_add_child occupied vacant, next_of_add_child occupied vacant]
  rcases add_child_cases different found with ⟨rfl, rfl⟩ | ⟨rfl, rfl⟩ | ⟨notParent, _, old⟩
  · refine ⟨[], rfl, List.nodup_nil, ?_⟩
    intro child
    by_cases same : child = node
    · subst same
      simp [different.symm]
    · simp [same, linked.no_child_of_vacant vacant child]
  · rcases linked.children occupied with ⟨kids, listed⟩
    have outside := listed.outside (orphan node)
    refine ⟨fresh :: kids, chain_push listed.1 outside,
      List.nodup_cons.mpr ⟨outside, listed.2.1⟩, ?_⟩
    intro child
    by_cases same : child = fresh
    · subst same
      simp
    · simp [same, listed.2.2 child]
  · rcases linked.children old with ⟨kids, listed⟩
    have outside := listed.outside (orphan node)
    refine ⟨kids, chain_update_of_not_mem listed.1 _ outside, listed.2.1, ?_⟩
    intro child
    by_cases same : child = fresh
    · subst same
      simp [outside, Ne.symm notParent]
    · simp [same, listed.2.2 child]

theorem add_child_keeps_ranks (occupied : forest parent = some above)
    (vacant : forest fresh = none) {target : Node} {old : Links Node}
    (atTarget : forest target = some old) :
    ∃ new, addChild forest parent fresh above target = some new ∧ new.rank = old.rank := by
  by_cases isParent : target = parent
  · subst isParent
    rw [occupied] at atTarget
    cases atTarget
    exact ⟨_, add_child_at_parent, rfl⟩
  · have notFresh := (apart_of_vacant atTarget vacant).symm
    exact ⟨old, by rw [add_child_elsewhere isParent notFresh, atTarget], rfl⟩

theorem WellLinked.add_child (linked : WellLinked forest) (occupied : forest parent = some above)
    (vacant : forest fresh = none) : WellLinked (addChild forest parent fresh above) := by
  have different := apart_of_vacant occupied vacant
  have lifted : ∀ {node links up}, forest node = some links → links.parent = some up →
      ∃ new, addChild forest parent fresh above up = some new ∧ links.rank = new.rank + 1 := by
    intro node links up found link
    rcases linked.ranks found link with ⟨old, atUp, height⟩
    rcases add_child_keeps_ranks occupied vacant atUp with ⟨new, atNew, sameRank⟩
    exact ⟨new, atNew, by omega⟩
  constructor
  · intro node links found
    exact linked.add_child_children occupied vacant found
  · intro node links found root
    rcases add_child_cases different found with ⟨_, rfl⟩ | ⟨_, rfl⟩ | ⟨_, _, old⟩
    · cases root
    · have kept := linked.roots occupied root
      exact kept
    · exact linked.roots old root
  · intro node links up found link
    rcases add_child_cases different found with ⟨_, rfl⟩ | ⟨_, rfl⟩ | ⟨_, _, old⟩
    · cases link
      exact ⟨_, add_child_at_parent, rfl⟩
    · have kept := lifted occupied link
      exact kept
    · exact lifted old link

end AddChild

end Growing

section Shrinking

variable [DecidableEq Node]

/-- A leaf that no chain points at any more is gone: every other node keeps its parent and
its rank, and the children chains have been relinked past the leaf. -/
structure WithoutLeaf (forest after : Forest Node) (leaf : Node) : Prop where
  vacated : after leaf = none
  vacant : ∀ node, forest node = none → after node = none
  kept : ∀ node links, node ≠ leaf → forest node = some links →
    ∃ new, after node = some new ∧ new.parent = links.parent ∧ new.rank = links.rank ∧
      (links.parent = none → new.next = links.next) ∧
      ∀ kids, Children forest links.first node kids →
        Chain (nextOf after) new.first (kids.filter (· ≠ leaf))

/-- The two ways of relinking, at the parent and at the sibling in front, share this rule. -/
theorem WellLinked.without_leaf (linked : WellLinked forest) {leaf : Node}
    {after : Forest Node} (childless : ∀ child, parentOf forest child ≠ some leaf)
    (without : WithoutLeaf forest after leaf) : WellLinked after := by
  rcases without with ⟨vacated, vacant, kept⟩
  have parents : ∀ node, node ≠ leaf → parentOf after node = parentOf forest node := by
    intro node different
    cases found : forest node with
    | none => simp [parentOf, found, vacant node found]
    | some links =>
        rcases kept node links different found with ⟨new, atNew, sameParent, _⟩
        simp [parentOf, found, atNew, sameParent]
  have origin : ∀ {node new}, after node = some new → ∃ links, node ≠ leaf ∧
      forest node = some links ∧ new.parent = links.parent ∧ new.rank = links.rank ∧
        (links.parent = none → new.next = links.next) ∧
        ∀ kids, Children forest links.first node kids →
          Chain (nextOf after) new.first (kids.filter (· ≠ leaf)) := by
    intro node new found
    have different : node ≠ leaf := by
      intro same
      rw [same, vacated] at found
      cases found
    cases before : forest node with
    | none =>
        rw [vacant node before] at found
        cases found
    | some links =>
        rcases kept node links different before with ⟨expected, atNew, facts⟩
        rw [atNew] at found
        cases found
        exact ⟨links, different, rfl, facts⟩
  constructor
  · intro node new found
    rcases origin found with ⟨links, different, before, _, _, _, relinked⟩
    rcases linked.children before with ⟨kids, listed⟩
    refine ⟨kids.filter (· ≠ leaf), relinked kids listed, listed.2.1.filter _, ?_⟩
    intro child
    by_cases same : child = leaf
    · subst same
      simp [parentOf, vacated]
    · rw [parents child same, ← listed.2.2 child]
      simp [same]
  · intro node new found root
    rcases origin found with ⟨links, _, before, sameParent, sameRank, sameNext, _⟩
    rw [sameParent] at root
    rcases linked.roots before root with ⟨nextNone, rankZero⟩
    exact ⟨(sameNext root).trans nextNone, sameRank.trans rankZero⟩
  · intro node new parent found link
    rcases origin found with ⟨links, _, before, sameParent, sameRank, _, _⟩
    rw [sameParent] at link
    rcases linked.ranks before link with ⟨above, atParent, height⟩
    have parentKept : parent ≠ leaf := by
      intro same
      apply childless node
      simp [parentOf, before, link, same]
    rcases kept parent above parentKept atParent with ⟨newAbove, atNew, _, rankSame, _⟩
    exact ⟨newAbove, atNew, by omega⟩

theorem children_without (kids : List Node) (leaf : Node) (outside : leaf ∉ kids) :
    kids.filter (· ≠ leaf) = kids := by
  apply List.filter_eq_self.mpr
  intro kid member
  have different : kid ≠ leaf := fun same => outside (same ▸ member)
  simpa using different

theorem remove_root {leaf : Node} {links : Links Node} (occupied : forest leaf = some links)
    (root : links.parent = none) : WithoutLeaf forest (Function.update forest leaf none) leaf := by
  refine ⟨Function.update_self .., ?_, ?_⟩
  · intro node vacant
    by_cases same : node = leaf
    · rw [same, Function.update_self]
    · rw [Function.update_of_ne same, vacant]
  · intro node old different found
    refine ⟨old, by rw [Function.update_of_ne different, found], rfl, rfl, fun _ => rfl, ?_⟩
    intro kids listed
    have outside := listed.outside (show parentOf forest leaf ≠ _ by simp [parentOf, occupied, root])
    rw [children_without kids leaf outside]
    apply chain_congr listed.1
    intro kid member
    have different : kid ≠ leaf := fun same => outside (same ▸ member)
    simp [nextOf, different]

theorem remove_first {leaf parent : Node} {links above : Links Node}
    (occupied : forest leaf = some links) (up : links.parent = some parent)
    (atParent : forest parent = some above) (first : above.first = some leaf) :
    WithoutLeaf forest (Function.update
      (Function.update forest parent (some { above with first := links.next })) leaf none) leaf := by
  have successors : ∀ node, node ≠ leaf →
      nextOf (Function.update (Function.update forest parent
        (some { above with first := links.next })) leaf none) node = nextOf forest node := by
    intro node different
    by_cases isParent : node = parent
    · subst isParent
      simp [nextOf, different, atParent]
    · simp [nextOf, different, isParent]
  refine ⟨Function.update_self .., ?_, ?_⟩
  · intro node vacant
    by_cases same : node = leaf
    · rw [same, Function.update_self]
    · rw [Function.update_of_ne same,
        Function.update_of_ne (apart_of_vacant atParent vacant), vacant]
  · intro node old different found
    by_cases isParent : node = parent
    · subst isParent
      rw [atParent] at found
      cases found
      refine ⟨{ above with first := links.next },
        by rw [Function.update_of_ne different, Function.update_self], rfl, rfl,
        fun _ => rfl, ?_⟩
      intro kids listed
      rcases listed with ⟨chain, distinct, _⟩
      rw [first] at chain
      rcases (chain_some leaf kids).mp chain with ⟨rest, rfl, tail⟩
      have outside := (List.nodup_cons.mp distinct).1
      have remaining : (leaf :: rest).filter (· ≠ leaf) = rest := by
        rw [List.filter_cons_of_neg (by simp), children_without rest leaf outside]
      rw [remaining]
      have start : nextOf forest leaf = links.next := by simp [nextOf, occupied]
      rw [start] at tail
      apply chain_congr tail
      intro kid member
      exact successors kid fun same => outside (same ▸ member)
    · refine ⟨old, by rw [Function.update_of_ne different,
        Function.update_of_ne isParent, found], rfl, rfl, fun _ => rfl, ?_⟩
      intro kids listed
      have outside := listed.outside (show parentOf forest leaf ≠ some node by
        simpa [parentOf, occupied, up] using Ne.symm isParent)
      rw [children_without kids leaf outside]
      apply chain_congr listed.1
      intro kid member
      exact successors kid fun same => outside (same ▸ member)

section Bypass

variable {leaf previous : Node} {links before : Links Node} {front back : List Node}

theorem next_of_bypass (occupied : forest leaf = some links) :
    nextOf (Function.update (Function.update forest previous
        (some { before with next := links.next })) leaf none) =
      Function.update (Function.update (nextOf forest) previous (nextOf forest leaf))
        leaf none := by
  funext node
  by_cases same : node = leaf
  · subst same
    simp [nextOf]
  · by_cases isPrevious : node = previous
    · subst isPrevious
      simp [nextOf, same, occupied]
    · simp [nextOf, same, isPrevious]

theorem children_past (distinct : (front ++ previous :: leaf :: back).Nodup) :
    leaf ∉ front ++ previous :: back ∧
      (front ++ previous :: leaf :: back).filter (· ≠ leaf) = front ++ previous :: back := by
  have outside : leaf ∉ front ++ previous :: back := by
    simp only [List.nodup_append, List.nodup_cons, List.mem_cons] at distinct
    simp only [List.mem_append, List.mem_cons, not_or]
    refine ⟨?_, ?_, ?_⟩
    · intro member
      exact distinct.2.2 leaf member leaf (Or.inr (Or.inl rfl)) rfl
    · intro same
      exact distinct.2.1.1 (Or.inl same.symm)
    · exact distinct.2.1.2.1
  refine ⟨outside, ?_⟩
  calc (front ++ previous :: leaf :: back).filter (· ≠ leaf)
      = (front ++ previous :: back).filter (· ≠ leaf) := by simp [List.filter_cons]
    _ = front ++ previous :: back := children_without _ leaf outside

theorem remove_later {parent : Node} {above : Links Node} (occupied : forest leaf = some links)
    (atParent : forest parent = some above) (atPrevious : forest previous = some before)
    (listed : Children forest above.first parent (front ++ previous :: leaf :: back)) :
    WithoutLeaf forest (Function.update
      (Function.update forest previous (some { before with next := links.next })) leaf none)
      leaf := by
  have previousParent : parentOf forest previous = some parent :=
    (listed.2.2 previous).mp (by simp)
  have leafParent : parentOf forest leaf = some parent := (listed.2.2 leaf).mp (by simp)
  rcases children_past listed.2.1 with ⟨past, without⟩
  refine ⟨Function.update_self .., ?_, ?_⟩
  · intro node vacant
    by_cases same : node = leaf
    · rw [same, Function.update_self]
    · rw [Function.update_of_ne same,
        Function.update_of_ne (apart_of_vacant atPrevious vacant), vacant]
  · intro node old different found
    have relinked : ∀ kids, Children forest old.first node kids →
        Chain (nextOf (Function.update (Function.update forest previous
          (some { before with next := links.next })) leaf none)) old.first
          (kids.filter (· ≠ leaf)) := by
      intro kids nodeKids
      rw [next_of_bypass occupied]
      by_cases isParent : node = parent
      · subst isParent
        rw [atParent] at found
        cases found
        cases chain_unique nodeKids.1 listed.1
        rw [without]
        exact chain_update_of_not_mem (chain_unlink listed.1 listed.2.1) _ past
      · have otherParent : some parent ≠ some node := by simpa using Ne.symm isParent
        have leafOutside := nodeKids.outside (leafParent ▸ otherParent)
        have previousOutside := nodeKids.outside (previousParent ▸ otherParent)
        rw [children_without kids leaf leafOutside]
        apply chain_update_of_not_mem _ _ leafOutside
        exact chain_update_of_not_mem nodeKids.1 _ previousOutside
    by_cases isPrevious : node = previous
    · subst isPrevious
      rw [atPrevious] at found
      cases found
      refine ⟨{ before with next := links.next },
        by rw [Function.update_of_ne different, Function.update_self], rfl, rfl,
        ?_, relinked⟩
      intro root
      have link := previousParent
      simp [parentOf, atPrevious, root] at link
    · exact ⟨old, by rw [Function.update_of_ne different,
        Function.update_of_ne isPrevious, found], rfl, rfl, fun _ => rfl, relinked⟩

end Bypass

/-- Cut away the listed nodes and let `root` start no children. -/
def prune (forest : Forest Node) (root : Node) (cut : List Node) : Forest Node :=
  fun node =>
    if node ∈ cut then none
    else if node = root then (forest root).map fun links => { links with first := none }
    else forest node

section Prune

variable {root : Node} {cut : List Node}

theorem prune_inside {node : Node} (inside : node ∈ cut) : prune forest root cut node = none := by
  simp [prune, inside]

theorem parent_of_prune {node : Node} (outside : node ∉ cut) :
    parentOf (prune forest root cut) node = parentOf forest node := by
  by_cases isRoot : node = root
  · subst isRoot
    cases found : forest node <;> simp [parentOf, prune, outside, found]
  · simp [parentOf, prune, outside, isRoot]

theorem next_of_prune {node : Node} (outside : node ∉ cut) :
    nextOf (prune forest root cut) node = nextOf forest node := by
  by_cases isRoot : node = root
  · subst isRoot
    cases found : forest node <;> simp [nextOf, prune, outside, found]
  · simp [nextOf, prune, outside, isRoot]

theorem prune_origin {node : Node} {new : Links Node}
    (found : prune forest root cut node = some new) :
    ∃ links, node ∉ cut ∧ forest node = some links ∧ new.parent = links.parent ∧
      new.next = links.next ∧ new.rank = links.rank ∧
      new.first = if node = root then none else links.first := by
  by_cases inside : node ∈ cut
  · rw [prune_inside inside] at found
    cases found
  · by_cases isRoot : node = root
    · subst isRoot
      cases before : forest node with
      | none => simp [prune, inside, before] at found
      | some links =>
          simp only [prune, if_neg inside, before, Option.map_some,
            Option.some.injEq, if_true] at found
          subst found
          exact ⟨links, inside, rfl, rfl, rfl, rfl, by simp⟩
    · simp only [prune, if_neg inside, if_neg isRoot] at found
      exact ⟨new, inside, found, rfl, rfl, rfl, by simp [isRoot]⟩

theorem prune_keeps {node : Node} {links : Links Node} (found : forest node = some links)
    (outside : node ∉ cut) :
    ∃ new, prune forest root cut node = some new ∧ new.rank = links.rank := by
  by_cases isRoot : node = root
  · subst isRoot
    exact ⟨{ links with first := none }, by simp [prune, outside, found], rfl⟩
  · exact ⟨links, by simp [prune, outside, isRoot, found], rfl⟩

theorem WellLinked.prune_children (linked : WellLinked forest)
    (exact_cut : ∀ node, node ∈ cut ↔ Below forest root node) {node : Node} {new : Links Node}
    (found : prune forest root cut node = some new) :
    ∃ kids, Children (prune forest root cut) new.first node kids := by
  rcases prune_origin found with ⟨links, outside, before, _, _, _, firstEq⟩
  by_cases isRoot : node = root
  · subst isRoot
    rw [if_pos rfl] at firstEq
    refine ⟨[], by rw [firstEq]; rfl, List.nodup_nil, ?_⟩
    intro child
    by_cases inside : child ∈ cut
    · simp [parentOf, prune_inside inside]
    · rw [parent_of_prune inside]
      have notChild : parentOf forest child ≠ some node := fun link =>
        inside ((exact_cut child).mpr ((below_iff_parent link).mpr (Or.inl rfl)))
      simpa using notChild
  · rw [if_neg isRoot] at firstEq
    rcases linked.children before with ⟨kids, chain, distinct, members⟩
    have kept : ∀ child, parentOf forest child = some node → child ∉ cut := by
      intro child link inside
      rcases (below_iff_parent link).mp ((exact_cut child).mp inside) with same | deeper
      · exact isRoot same
      · exact outside ((exact_cut node).mpr deeper)
    refine ⟨kids, ?_, distinct, ?_⟩
    · rw [firstEq]
      apply chain_congr chain
      intro kid member
      exact next_of_prune (kept kid ((members kid).mp member))
    · intro child
      rw [members child]
      by_cases inside : child ∈ cut
      · constructor
        · intro link
          exact absurd inside (kept child link)
        · intro link
          simp [parentOf, prune_inside inside] at link
      · rw [parent_of_prune inside]

theorem WellLinked.prune_below (linked : WellLinked forest)
    (exact_cut : ∀ node, node ∈ cut ↔ Below forest root node) :
    WellLinked (prune forest root cut) := by
  constructor
  · intro node new found
    exact linked.prune_children exact_cut found
  · intro node new found isRoot
    rcases prune_origin found with ⟨links, _, before, parentEq, nextEq, rankEq, _⟩
    rw [parentEq] at isRoot
    rcases linked.roots before isRoot with ⟨nextNone, rankZero⟩
    exact ⟨nextEq.trans nextNone, rankEq.trans rankZero⟩
  · intro node new parent found link
    rcases prune_origin found with ⟨links, outside, before, parentEq, _, rankEq, _⟩
    rw [parentEq] at link
    rcases linked.ranks before link with ⟨above, atParent, height⟩
    have parentLink : parentOf forest node = some parent := by
      simp [parentOf, before, link]
    have parentOutside : parent ∉ cut := by
      intro inside
      apply outside
      apply (exact_cut node).mpr
      exact (below_iff_parent parentLink).mpr (Or.inr ((exact_cut parent).mp inside))
    rcases @prune_keeps _ forest _ root _ _ _ atParent parentOutside with
      ⟨kept, atKept, sameRank⟩
    exact ⟨kept, atKept, by omega⟩

end Prune

end Shrinking

/-! ## The breadth-first sweep -/

/-- After the children of `root` and of the first `scan` collected nodes have
been appended: nothing is collected twice, everything collected lies below
`root`, and every child of an expanded node is there. `origin` is what keeps the
next batch of children disjoint from the nodes already collected. -/
structure Sweep (forest : Forest Node) (root : Node) (scan : Nat)
    (collected : List Node) : Prop where
  distinct : collected.Nodup
  sound : ∀ node ∈ collected, Below forest root node
  seeded : ∀ child, parentOf forest child = some root → child ∈ collected
  expanded : ∀ position node, position < scan → collected[position]? = some node →
    ∀ child, parentOf forest child = some node → child ∈ collected
  origin : ∀ child ∈ collected, parentOf forest child = some root ∨
    ∃ position node, position < scan ∧ collected[position]? = some node ∧
      parentOf forest child = some node

theorem sweep_start {root : Node} {first : Option Node} {kids : List Node}
    (listed : Children forest first root kids) : Sweep forest root 0 kids where
  distinct := listed.2.1
  sound := fun node member => Relation.TransGen.single ((listed.2.2 node).mp member)
  seeded := fun child link => (listed.2.2 child).mpr link
  expanded := fun _ _ none_before => absurd none_before (Nat.not_lt_zero _)
  origin := fun child member => Or.inl ((listed.2.2 child).mp member)

theorem Sweep.step (linked : WellLinked forest) {root node : Node} {scan : Nat}
    {collected kids : List Node} {first : Option Node}
    (sweep : Sweep forest root scan collected) (current : collected[scan]? = some node)
    (listed : Children forest first node kids) :
    Sweep forest root (scan + 1) (collected ++ kids) := by
  have member : node ∈ collected := List.mem_of_getElem? current
  have scanBound : scan < collected.length := (List.getElem?_eq_some_iff.mp current).1
  have nodeBelow := sweep.sound node member
  have notRoot : node ≠ root := by
    intro same
    rw [same] at nodeBelow
    exact linked.not_below_self root nodeBelow
  have early : ∀ {position found}, position < scan + 1 →
      (collected ++ kids)[position]? = some found → collected[position]? = some found := by
    intro position found bound at_position
    rwa [List.getElem?_append_left (by omega)] at at_position
  -- A collected child of `node` would have come from another expanded node.
  have fresh : ∀ child ∈ collected, child ∉ kids := by
    intro child inside kid
    have link := (listed.2.2 child).mp kid
    rcases sweep.origin child inside with fromRoot | ⟨position, other, before, at_position, up⟩
    · rw [link] at fromRoot
      cases fromRoot
      exact notRoot rfl
    · rw [link] at up
      cases up
      have positions := (List.getElem?_inj scanBound sweep.distinct).mp
        (current.trans at_position.symm)
      omega
  constructor
  · apply List.nodup_append.mpr
    refine ⟨sweep.distinct, listed.2.1, ?_⟩
    intro child inside other kid same
    exact fresh child inside (same ▸ kid)
  · intro child inside
    rcases List.mem_append.mp inside with old | new
    · exact sweep.sound child old
    · exact Relation.TransGen.head ((listed.2.2 child).mp new) nodeBelow
  · intro child link
    exact List.mem_append_left _ (sweep.seeded child link)
  · intro position found bound at_position child link
    have old := early bound at_position
    by_cases current_position : position = scan
    · rw [current_position, current] at old
      cases old
      exact List.mem_append_right _ ((listed.2.2 child).mpr link)
    · exact List.mem_append_left _
        (sweep.expanded position found (by omega) old child link)
  · intro child inside
    rcases List.mem_append.mp inside with old | new
    · rcases sweep.origin child old with fromRoot | ⟨position, other, before, at_position, up⟩
      · exact Or.inl fromRoot
      · refine Or.inr ⟨position, other, by omega, ?_, up⟩
        rw [List.getElem?_append_left (by omega), at_position]
    · refine Or.inr ⟨scan, node, by omega, ?_, (listed.2.2 child).mp new⟩
      rw [List.getElem?_append_left scanBound, current]

/-- Once every collected node has been expanded, exactly what is below `root`
has been collected. -/
theorem Sweep.complete {root : Node} {scan : Nat} {collected : List Node}
    (sweep : Sweep forest root scan collected) (finished : collected.length ≤ scan)
    (node : Node) : node ∈ collected ↔ Below forest root node := by
  constructor
  · exact sweep.sound node
  · intro below
    unfold Below at below
    induction below using Relation.TransGen.head_induction_on with
    | single link => exact sweep.seeded _ link
    | head link _ ih =>
        rcases List.getElem?_of_mem ih with ⟨position, at_position⟩
        have bound := (List.getElem?_eq_some_iff.mp at_position).1
        exact sweep.expanded position _ (by omega) at_position _ link

end Tyrne.Lib.SiblingForest
