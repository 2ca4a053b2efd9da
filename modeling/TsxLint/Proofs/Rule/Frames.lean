import TsxLint.Proofs.Binding.Reached
import TsxLint.Proofs.Rule.Places

/-!
# Frames

Branches are counted in one walk through a file, with the open frames on a stack: entering a node
opens a frame or counts for the frame on top, leaving a node closes the frame that it opened. The
walk through a node gives back the stack that it was given, with the frame on top raised by the
branches that count for it. So the frame that is closed with a node is the one that the node opened,
and it has counted the branches whose nearest frame is that node.

## Main definitions

* `Node.postorder`, `Node.frameNodes`: the order in which nodes are left, and the nodes that count
  for the frame around a node.
* `Model.nearestFrame?`, `Model.branchesOf`, `Model.complexityOf`: the frame around a node, the
  branches of a frame, and its complexity.

## Main results

* `Complexity.Counter.walk_eq`: what the walk through a node does to the counter.
* `Model.mem_branchesOf_iff`: the nodes that count for a frame are those whose nearest frame it is.
* `Model.branches_count_for_nearest_frame`: the complexity of all frames, and which are reported.
-/

namespace TsxLint

namespace Node

/-! ### The order in which nodes are left -/

mutual

/-- A node after everything inside it. -/
def postorder : Node → List Node
  | ⟨role, id, kind, span, children⟩ => postorderAll children ++ [⟨role, id, kind, span, children⟩]

/-- Everything in a list of nodes, inner nodes before outer ones. -/
def postorderAll : List Node → List Node
  | [] => []
  | n :: ns => n.postorder ++ postorderAll ns

end

mutual

/-- Every node that is entered is left. -/
theorem postorder_perm : (n : Node) → n.postorder.Perm n.preorder
  | ⟨role, id, kind, span, children⟩ => by
    rw [postorder, preorder]
    exact (postorderAll_perm children).append_right _ |>.trans List.perm_append_comm

theorem postorderAll_perm : (ns : List Node) → (postorderAll ns).Perm (preorderAll ns)
  | [] => by rw [postorderAll, preorderAll]
  | n :: ns => by
    rw [postorderAll, preorderAll]
    exact (postorder_perm n).append (postorderAll_perm ns)

end

theorem Closed.postorder {P : Node → Prop} (h : Closed P) (n : Node) (hn : P n) :
    ∀ m ∈ n.postorder, P m := by
  induction n using Node.postorder.induct _
    (fun ns => (∀ n ∈ ns, P n) → ∀ m ∈ Node.postorderAll ns, P m) with
  | case1 role id kind span children ih =>
    rw [Node.postorder]
    exact List.forall_mem_append.mpr ⟨ih (h _ hn), List.forall_mem_singleton.mpr hn⟩
  | case2 _ m hm => simp [Node.postorderAll] at hm
  | case3 n ns ih ihs hns m hm =>
    rw [Node.postorderAll] at hm
    obtain ⟨hn, hns⟩ := List.forall_mem_cons.mp hns
    rcases List.mem_append.mp hm with hm | hm
    · exact ih hn m hm
    · exact ihs hns m hm

/-- What is inside a part is inside the node. -/
theorem mem_preorderAll_trans {a b : Node} {ns : List Node} (ha : a ∈ preorderAll ns)
    (hb : b ∈ preorderAll a.children) : b ∈ preorderAll ns := by
  refine (preorder_sublist_of_mem_all ns ha).subset ?_
  rw [preorder_eq]
  exact List.mem_cons_of_mem a hb

mutual

/-- A node is left after everything inside it. -/
theorem pairwise_postorder : (n : Node) → n.preorder.Nodup →
    n.postorder.Pairwise fun a b => b ∉ preorderAll a.children
  | ⟨role, id, kind, span, children⟩, h => by
    rw [preorder, List.nodup_cons] at h
    rw [postorder, List.pairwise_append]
    refine ⟨pairwise_postorderAll children h.2, List.pairwise_singleton _ _, ?_⟩
    intro a ha b hb hinside
    obtain rfl := List.mem_singleton.mp hb
    exact h.1 (mem_preorderAll_trans ((postorderAll_perm children).mem_iff.mp ha) hinside)

theorem pairwise_postorderAll : (ns : List Node) → (preorderAll ns).Nodup →
    (postorderAll ns).Pairwise fun a b => b ∉ preorderAll a.children
  | [], _ => by
    rw [postorderAll]
    exact List.Pairwise.nil
  | n :: ns, h => by
    rw [preorderAll, List.nodup_append'] at h
    rw [postorderAll, List.pairwise_append]
    refine ⟨pairwise_postorder n h.1, pairwise_postorderAll ns h.2.1, ?_⟩
    intro a ha b hb hinside
    have hn := (postorder_perm n).mem_iff.mp ha
    have hmem : b ∈ n.preorder := by
      refine (preorder_sublist_of_mem n hn).subset ?_
      rw [preorder_eq]
      exact List.mem_cons_of_mem a hinside
    exact h.2.2 hmem ((postorderAll_perm ns).mem_iff.mp hb)

end

/-! ### The nodes that count for a frame -/

mutual

/-- The nodes of a tree that count for the frame around it: those outside of the frames inside. -/
def frameNodes : Node → List Node
  | ⟨role, id, kind, span, children⟩ =>
    let n : Node := ⟨role, id, kind, span, children⟩
    if n.opensFrame then [] else n :: frameNodesAll children

/-- The nodes of a list of trees that count for the frame around them. -/
def frameNodesAll : List Node → List Node
  | [] => []
  | n :: ns => n.frameNodes ++ frameNodesAll ns

end

mutual

/-- What counts for a frame is found by a search that stops at frames. -/
theorem frameNodes_eq : (n : Node) →
    n.frameNodes = if n.opensFrame then [] else n.reached (passes opensFrame)
  | ⟨role, id, kind, span, children⟩ => by
    rw [frameNodes, reached, frameNodesAll_eq _ children]

theorem frameNodesAll_eq (holder : Node) : (ns : List Node) →
    frameNodesAll ns = reachedFrom (passes opensFrame) holder ns
  | [] => by rw [frameNodesAll, reachedFrom]
  | n :: ns => by
    rw [frameNodesAll, reachedFrom, frameNodes_eq n, frameNodesAll_eq holder ns, passes]
    cases n.opensFrame <;> rfl

end

section

variable {root : Node}

/-- What is around a node has the node inside it. -/
theorem mem_preorderAll_of_mem_outer {a : Node} : (outer : List Node) → {b : Node} →
    (b, outer) ∈ root.paths [] → a ∈ outer → b ∈ preorderAll a.children
  | [], _, _, ha => by cases ha
  | p :: outer, b, h, ha => by
    obtain ⟨hchild, hplace⟩ := parent_mem_paths_root h
    have hb : b ∈ preorderAll p.children := mem_preorderAll.mpr ⟨b, hchild, b.mem_preorder_self⟩
    rcases List.mem_cons.mp ha with rfl | ha
    · exact hb
    · exact mem_preorderAll_trans (mem_preorderAll_of_mem_outer outer hplace ha) hb

end

end Node

/-! ### The count -/

namespace Complexity

variable (variant : ComplexityVariant)

/-- The number of branches among some nodes and what counts with them. -/
def branchCount (ns : List Node) : Nat := (Node.frameNodesAll ns).countP variant.isBranch

/-- A node that opens a frame is no branch. -/
theorem isBranch_of_opensFrame {n : Node} (h : n.opensFrame = true) :
    variant.isBranch n = false := by
  unfold Node.opensFrame at h
  unfold ComplexityVariant.isBranch
  split at h
  · simp_all
  · simp_all
  · simp_all
  · simp_all
  · cases h

namespace Frame

@[simp] theorem add_zero (frame : Frame) : frame.add 0 = frame := rfl

@[simp] theorem add_add (frame : Frame) (k l : Nat) : (frame.add k).add l = frame.add (k + l) := by
  rw [add, add, add, Nat.add_assoc]

/-- The frame of a node once everything inside it was counted. -/
def whole (n : Node) : Frame := (ofNode n).add (branchCount variant n.children)

end Frame

namespace Counter

/-! A step opens, closes or raises the innermost frame, and leaves those around it alone. -/

theorem enter_of_opensFrame {n : Node} (h : n.opensFrame = true) (outer closed : List Frame) :
    enter variant ⟨outer, closed⟩ n = ⟨.ofNode n :: outer, closed⟩ := by
  rw [enter, if_pos h]

theorem enter_of_not_opensFrame {n : Node} (h : n.opensFrame = false) (frame : Frame)
    (outer closed : List Frame) : enter variant ⟨frame :: outer, closed⟩ n =
      ⟨frame.add (if variant.isBranch n then 1 else 0) :: outer, closed⟩ := by
  rw [enter, if_neg (by simp [h])]
  split_ifs
  · rfl
  · rfl

theorem leave_of_opensFrame {n : Node} (h : n.opensFrame = true) (frame : Frame)
    (outer closed : List Frame) :
    leave ⟨frame :: outer, closed⟩ n = ⟨outer, closed ++ [frame]⟩ := by
  rw [leave, if_pos h]

theorem leave_of_not_opensFrame {n : Node} (h : n.opensFrame = false) (s : Counter) :
    s.leave n = s := by
  rw [leave, if_neg (by simp [h])]

mutual

/-- The walk through a node raises the frame on top by the branches that count for it, and closes
the frames inside the node, each with all its branches. -/
theorem walk_eq : (n : Node) → (frame : Frame) → (outer closed : List Frame) →
    walk variant ⟨frame :: outer, closed⟩ n =
      ⟨frame.add (n.frameNodes.countP variant.isBranch) :: outer,
        closed ++ (n.postorder.filter Node.opensFrame).map (Frame.whole variant)⟩
  | ⟨role, id, kind, span, children⟩, frame, outer, closed => by
    rw [walk, Node.frameNodes, Node.postorder]
    cases hopens : Node.opensFrame ⟨role, id, kind, span, children⟩ with
    | true =>
      rw [enter_of_opensFrame variant hopens, walkAll_eq children, leave_of_opensFrame hopens,
        if_pos rfl, List.countP_nil, Frame.add_zero, List.filter_append,
        List.filter_singleton, hopens, List.map_append, List.append_assoc]
      rfl
    | false =>
      rw [enter_of_not_opensFrame variant hopens, walkAll_eq children,
        leave_of_not_opensFrame hopens, if_neg Bool.false_ne_true, List.filter_append,
        List.filter_singleton, hopens, Frame.add_add, List.countP_cons, Nat.add_comm, branchCount]
      simp

theorem walkAll_eq : (ns : List Node) → (frame : Frame) → (outer closed : List Frame) →
    walkAll variant ⟨frame :: outer, closed⟩ ns =
      ⟨frame.add (branchCount variant ns) :: outer,
        closed ++ ((Node.postorderAll ns).filter Node.opensFrame).map (Frame.whole variant)⟩
  | [], frame, outer, closed => by
    simp [walkAll, branchCount, Node.frameNodesAll, Node.postorderAll]
  | n :: ns, frame, outer, closed => by
    rw [walkAll, walk_eq n, walkAll_eq ns, Frame.add_add, Node.postorderAll, branchCount,
      branchCount, Node.frameNodesAll, List.countP_append, List.filter_append, List.map_append,
      List.append_assoc]

end

end Counter

/-- The frames of a file are closed in the order in which the nodes are left that opened them, each
with all its branches. -/
theorem frames_eq (m : Model) : frames variant m =
    (m.program.root.postorder.filter Node.opensFrame).map (Frame.whole variant) := by
  rw [frames, Counter.start, Counter.walk_eq, List.nil_append]

/-- Of some frames those are reported whose complexity is above the maximum and that are no
components. -/
theorem filterMap_report? (max : Nat) (m : Model) (complexity : Node → Nat) (order : List Node) :
    (order.map fun f => ⟨some f, complexity f⟩).filterMap (report? max m) =
      (order.filter fun f => max < complexity f ∧ m.isComponentFrame f = false).map fun f =>
        ⟨f.span, "complex", [("name", Text.capitalize (m.frameLabel f)),
          ("complexity", toString (complexity f)), ("max", toString max)]⟩ := by
  induction order with
  | nil => rfl
  | cons f order ih =>
    rw [List.map_cons, List.filterMap_cons, ih, List.filter_cons, report?]
    cases hcomponent : m.isComponentFrame f with
    | true => simp [hcomponent]
    | false =>
      by_cases hmax : max < complexity f
      · simp [hcomponent, hmax, Nat.not_le.mpr hmax]
      · simp [hmax, Nat.not_lt.mp hmax]

end Complexity

namespace Model

/-! ### Nearest frames -/

/-- The node that opened the nearest frame around a node. -/
def nearestFrame? (m : Model) (id : Nat) : Option Node := (m.ancestors id).find? Node.opensFrame

/-- The branches whose nearest frame is that of a node. -/
def branchesOf (m : Model) (variant : ComplexityVariant) (frame : Node) : List Node :=
  m.nodes.filter fun n =>
    variant.isBranch n && (m.nearestFrame? n.id).any (·.id == frame.id)

/-- The complexity of a frame: one, and one for each of its branches. -/
def complexityOf (m : Model) (variant : ComplexityVariant) (frame : Node) : Nat :=
  1 + (m.branchesOf variant frame).length

variable {c : Cst} {variant : ComplexityVariant} {f n : Node}

theorem mem_branchesOf_iff (hf : f ∈ (ofCst c).nodes) :
    n ∈ (ofCst c).branchesOf variant f ↔ n ∈ (ofCst c).nodes ∧ variant.isBranch n = true ∧
      (ofCst c).nearestFrame? n.id = some f := by
  rw [branchesOf, List.mem_filter, Bool.and_eq_true]
  exact and_congr_right fun hn => and_congr_right fun _ =>
    (isTree_ofCst c).any_find?_ancestors_iff hn hf

/-- A branch counts for the frame that is nearest to it in the tree. -/
theorem mem_frameNodesAll_iff (hf : f ∈ (ofCst c).nodes) (hframe : f.opensFrame = true) :
    n ∈ Node.frameNodesAll f.children ↔ n ∈ (ofCst c).nodes ∧ n.opensFrame = false ∧
      (ofCst c).nearestFrame? n.id = some f := by
  have htree := isTree_ofCst c
  rw [Node.frameNodesAll_eq f, Node.mem_reachedFrom_passes_iff hframe, mem_reached_iff_ancestors hf,
    nearestFrame?, htree.find?_ancestors_eq_some_iff, and_assoc]
  refine and_congr_right fun _ => ?_
  constructor
  · rintro ⟨⟨inner, hsplit, hchain⟩, hopens⟩
    refine ⟨hopens, hframe, ?_⟩
    cases inner with
    | nil =>
      rw [(List.cons.inj hsplit).1, hframe] at hopens
      cases hopens
    | cons a inner =>
      have hbetween := Node.isChain_passes.mp hchain
      exact ⟨inner, (List.cons.inj hsplit).2, (List.forall_mem_cons.mp hbetween).2⟩
  · rintro ⟨hopens, -, inner, hsplit, hbetween⟩
    refine ⟨⟨n :: inner, by rw [hsplit, List.cons_append], ?_⟩, hopens⟩
    exact Node.isChain_passes.mpr (List.forall_mem_cons.mpr ⟨hopens, hbetween⟩)

/-- What the walk counts for a frame are its branches. -/
theorem branchCount_eq (hf : f ∈ (ofCst c).nodes) (hframe : f.opensFrame = true) :
    Complexity.branchCount variant f.children = ((ofCst c).branchesOf variant f).length := by
  have hsub : (Node.frameNodesAll f.children).Sublist (ofCst c).nodes := by
    rw [nodes_ofCst] at hf ⊢
    refine List.Sublist.trans ?_ (Node.preorder_sublist_of_mem _ hf)
    rw [Node.preorder_eq, Node.frameNodesAll_eq f]
    exact (Node.reachedFrom_sublist f f.children).cons f
  rw [Complexity.branchCount, List.countP_eq_length_filter]
  refine List.Perm.length_eq ((List.perm_ext_iff_of_nodup ?_ ?_).mpr fun n => ?_)
  · exact (nodup_nodes.sublist hsub).filter _
  · exact nodup_nodes.filter _
  · rw [List.mem_filter, mem_frameNodesAll_iff hf hframe, mem_branchesOf_iff hf]
    constructor
    · rintro ⟨⟨hn, -, hnearest⟩, hbranch⟩
      exact ⟨hn, hbranch, hnearest⟩
    · rintro ⟨hn, hbranch, hnearest⟩
      refine ⟨⟨hn, ?_, hnearest⟩, hbranch⟩
      by_contra hopens
      rw [Bool.not_eq_false] at hopens
      rw [Complexity.isBranch_of_opensFrame variant hopens] at hbranch
      cases hbranch

/-- **Branches count for the nearest frame.** In a lowered file the count closes each frame once,
inner frames before the frames around them, with one and one for each branch whose nearest frame it
is; no branch counts for two frames. The frames that are reported are those, in this order, whose
complexity is above the maximum and that are no functions with a strict Pascal-case name. -/
theorem branches_count_for_nearest_frame (c : Cst) (options : Complexity.Options) (s : Subject)
    (hs : s.model = ofCst c) :
    (∀ f ∈ (ofCst c).nodes, ∀ n, n ∈ (ofCst c).branchesOf options.variant f ↔
      n ∈ (ofCst c).nodes ∧ options.variant.isBranch n = true ∧
        (ofCst c).nearestFrame? n.id = some f) ∧
    (∀ f ∈ (ofCst c).nodes, ∀ g ∈ (ofCst c).nodes, ∀ n ∈ (ofCst c).branchesOf options.variant f,
      n ∈ (ofCst c).branchesOf options.variant g → f = g) ∧
    ∃ order : List Node, order.Nodup ∧
      (∀ f, f ∈ order ↔ f ∈ (ofCst c).nodes ∧ f.opensFrame = true) ∧
      (order.Pairwise fun f g => f ∉ (ofCst c).ancestors g.id) ∧
      (Complexity.frames options.variant s.model =
        order.map fun f => ⟨some f, (ofCst c).complexityOf options.variant f⟩) ∧
      Complexity.check options s =
        (order.filter fun f => options.max < (ofCst c).complexityOf options.variant f ∧
          (ofCst c).isComponentFrame f = false).map fun f => ⟨f.span, "complex",
            [("name", Text.capitalize ((ofCst c).frameLabel f)),
              ("complexity", toString ((ofCst c).complexityOf options.variant f)),
              ("max", toString options.max)]⟩ := by
  have hperm : (ofCst c).program.root.postorder.Perm (ofCst c).nodes := by
    rw [nodes_ofCst]
    exact Node.postorder_perm _
  have hnodup : (Program.ofCst c).root.preorder.Nodup := nodes_ofCst c ▸ nodup_nodes
  have hmem (f : Node) : f ∈ (ofCst c).program.root.postorder.filter Node.opensFrame ↔
      f ∈ (ofCst c).nodes ∧ f.opensFrame = true := by
    rw [List.mem_filter, hperm.mem_iff]
  have hframes : Complexity.frames options.variant (ofCst c) =
      ((ofCst c).program.root.postorder.filter Node.opensFrame).map fun f =>
        ⟨some f, (ofCst c).complexityOf options.variant f⟩ := by
    rw [Complexity.frames_eq]
    refine List.map_congr_left fun f hf => ?_
    obtain ⟨hf, hframe⟩ := (hmem f).mp hf
    rw [Complexity.Frame.whole, branchCount_eq hf hframe]
    rfl
  refine ⟨fun f hf n => mem_branchesOf_iff hf, fun f hf g hg n hn hn' => ?_,
    (ofCst c).program.root.postorder.filter Node.opensFrame, ?_, hmem, ?_, hs ▸ hframes, ?_⟩
  · have hnearest := ((mem_branchesOf_iff hf).mp hn).2.2
    exact Option.some.inj (hnearest.symm.trans ((mem_branchesOf_iff hg).mp hn').2.2)
  · exact (hperm.nodup_iff.mpr nodup_nodes).filter _
  · refine ((Node.pairwise_postorder _ hnodup).imp_of_mem fun hf hg houtside hinside => ?_).filter _
    obtain ⟨outer, hplace⟩ := exists_place_of_mem_nodes (hperm.mem_iff.mp hg)
    rw [ancestors_of_place hplace] at hinside
    exact houtside (Node.mem_preorderAll_of_mem_outer outer hplace hinside)
  · rw [Complexity.check, hs, hframes, Complexity.filterMap_report?]

/-- The tree of `function f(a) { const g = () => a && b && c; return g; }`, most tokens left out. -/
private def nestedBranches : Cst :=
  ⟨"program", true, "", ⟨0, 56⟩, "", [
    ⟨"function_declaration", true, "", ⟨0, 56⟩, "", [
      ⟨"identifier", true, "name", ⟨9, 10⟩, "f", []⟩,
      ⟨"formal_parameters", true, "parameters", ⟨10, 13⟩, "(a)", []⟩,
      ⟨"statement_block", true, "body", ⟨14, 56⟩, "", [
        ⟨"lexical_declaration", true, "", ⟨16, 44⟩, "", [
          ⟨"const", false, "kind", ⟨16, 21⟩, "const", []⟩,
          ⟨"variable_declarator", true, "", ⟨22, 43⟩, "", [
            ⟨"identifier", true, "name", ⟨22, 23⟩, "g", []⟩,
            ⟨"arrow_function", true, "value", ⟨26, 43⟩, "", [
              ⟨"formal_parameters", true, "parameters", ⟨26, 28⟩, "()", []⟩,
              ⟨"binary_expression", true, "body", ⟨32, 43⟩, "", [
                ⟨"binary_expression", true, "left", ⟨32, 38⟩, "", [
                  ⟨"identifier", true, "left", ⟨32, 33⟩, "a", []⟩,
                  ⟨"&&", false, "operator", ⟨34, 36⟩, "&&", []⟩,
                  ⟨"identifier", true, "right", ⟨37, 38⟩, "b", []⟩]⟩,
                ⟨"&&", false, "operator", ⟨39, 41⟩, "&&", []⟩,
                ⟨"identifier", true, "right", ⟨42, 43⟩, "c", []⟩]⟩]⟩]⟩]⟩,
        ⟨"return_statement", true, "", ⟨45, 54⟩, "", [
          ⟨"identifier", true, "", ⟨52, 53⟩, "g", []⟩]⟩]⟩]⟩]⟩

/-- The file with this tree. -/
private def nestedFile : Subject :=
  .ofFile ⟨"a.ts", "", .ts, ofCst nestedBranches, ⟨[0]⟩⟩ none

/-- The branches of an inner function do not count for the function around it, and the inner
function comes first. -/
theorem complexity_of_nested_functions : ∃ inner outer : Node,
    inner.span = ⟨26, 43⟩ ∧ outer.span = ⟨0, 56⟩ ∧
    Complexity.frames .classic nestedFile.model =
      [⟨some inner, (ofCst nestedBranches).complexityOf .classic inner⟩,
        ⟨some outer, (ofCst nestedBranches).complexityOf .classic outer⟩] ∧
    (ofCst nestedBranches).complexityOf .classic inner = 3 ∧
    (ofCst nestedBranches).complexityOf .classic outer = 1 := by
  obtain ⟨-, -, order, -, -, -, hframes, -⟩ :=
    branches_count_for_nearest_frame nestedBranches ⟨0, .classic⟩ nestedFile rfl
  have hvalues : (Complexity.frames .classic nestedFile.model).map
      (fun frame => (frame.node.map Node.span, frame.complexity)) =
        [(some ⟨26, 43⟩, 3), (some ⟨0, 56⟩, 1)] := by
    decide +kernel
  rw [hframes, List.map_map] at hvalues
  have hlength : order.length = 2 := by simpa using congrArg List.length hvalues
  obtain ⟨inner, outer, rfl⟩ := List.length_eq_two.mp hlength
  simp only [List.map_cons, List.map_nil, Function.comp_apply, Option.map_some, List.cons.injEq,
    Prod.mk.injEq, Option.some.injEq, and_true] at hvalues
  obtain ⟨⟨hinner, hinner'⟩, houter, houter'⟩ := hvalues
  exact ⟨inner, outer, hinner, houter, hframes, hinner', houter'⟩

end Model

end TsxLint
