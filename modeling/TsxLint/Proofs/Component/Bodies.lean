import TsxLint.Proofs.Binding.EnclosingFunction
import TsxLint.Proofs.Binding.Reached
import TsxLint.Proofs.Lowering.Sorts

/-!
# What a body calls and returns

A body leaves to nested functions what they do, in two ways: the search for calls stops at every
function, and the one for returns only looks where a statement holds statements of the same body.
The model says for every node which function it belongs to. The two agree: a body calls what its
function encloses, and it returns what its function encloses, except for what stands in a static
block or in an export, where the search for returns does not look.

## Main definitions

* `Node.isReturnPart`: the parts that the search for returns follows.
* `Model.ownReturns`: the returns of a block body, as the model has them.

## Main results

* `Node.returns_eq`, `Node.ownNodes_eq`: both are searches through a tree.
* `Model.belongs_iff`: the nodes of a body that its function encloses.
* `Model.bodies_agree_with_enclosing_functions`: what bodies call and return.
-/

namespace TsxLint

/-- The statements of a block body, or the expression. -/
def Body.node : Body → Node
  | block node | expression node => node

namespace Node

variable {n m : Node}

/-- Whether a node is a return. -/
def isReturn (n : Node) : Bool :=
  match n.kind with
  | .returnStatement => true
  | _ => false

/-- Whether a node is a call. -/
def isCall (n : Node) : Bool :=
  match n.kind with
  | .callExpression _ => true
  | _ => false

/-- Whether a node exports something. -/
def isExport (n : Node) : Bool :=
  match n.kind with
  | .exportNamedDeclaration .. | .exportDefaultDeclaration => true
  | _ => false

/-- Whether returns of the same body are looked for in a part. -/
def isReturnPart (holder part : Node) : Bool := holder.kind.returnRoles.contains part.role

/-! ### The searches -/

theorem returnsAt_nil (ns : List Node) : returnsAt [] ns = [] := by
  induction ns with
  | nil => rw [returnsAt]
  | cons n ns ih => simp [returnsAt, ih]

mutual

/-- The search for returns follows the parts of statements. -/
theorem returns_eq : (n : Node) →
    n.returns = ((n.reached isReturnPart).filter isReturn).flatMap (·.all .argument)
  | ⟨role, id, kind, span, children⟩ => by
    have hparts := returnsAt_eq ⟨role, id, kind, span, children⟩ children
    by_cases hkind : kind = .returnStatement
    · subst hkind
      rw [returns, reached, List.filter_cons_of_pos rfl, List.flatMap_cons, ← hparts]
      exact (List.append_nil _).symm.trans (congrArg _ (returnsAt_nil children).symm)
    · have hreturn : ¬ (Node.mk role id kind span children).isReturn = true := by
        unfold isReturn
        split
        · exact fun _ => hkind ‹_›
        · exact Bool.false_ne_true
      rw [returns, reached, List.filter_cons_of_neg hreturn, ← hparts]
      exact hkind

theorem returnsAt_eq (holder : Node) : (ns : List Node) →
    returnsAt holder.kind.returnRoles ns =
      ((reachedFrom isReturnPart holder ns).filter isReturn).flatMap (·.all .argument)
  | [] => by rw [returnsAt, reachedFrom, List.filter_nil, List.flatMap_nil]
  | n :: ns => by
    rw [returnsAt, reachedFrom, returnsAt_eq holder ns, List.filter_append, List.flatMap_append]
    refine congrArg (· ++ _) ?_
    unfold isReturnPart
    split_ifs
    · exact returns_eq n
    · rfl

end

mutual

/-- The search for calls stops at functions. -/
theorem ownNodes_eq : (n : Node) →
    n.ownNodes = if n.isFunctionLike then [] else n.reached (passes isFunctionLike)
  | ⟨role, id, kind, span, children⟩ => by
    rw [ownNodes, reached, ownNodesAll_eq _ children]

theorem ownNodesAll_eq (holder : Node) : (ns : List Node) →
    ownNodesAll ns = reachedFrom (passes isFunctionLike) holder ns
  | [] => by rw [ownNodesAll, reachedFrom]
  | n :: ns => by
    rw [ownNodesAll, reachedFrom, ownNodes_eq n, ownNodesAll_eq holder ns, passes]
    cases n.isFunctionLike <;> rfl

end

theorem isFunctionLike_of_isCall (h : n.isCall = true) : n.isFunctionLike = false := by
  unfold isCall at h
  split at h
  · rename_i hkind
    rw [isFunctionLike, hkind]
  · cases h

/-! ### Where returns stand -/

/-- A node with parts in which returns are looked for is no function, static block or export. -/
theorem isFunctionLike_of_returnRoles (h : n.kind.returnRoles ≠ []) :
    n.isFunctionLike = false ∧ n.isStaticBlock = false ∧ n.isExport = false := by
  obtain ⟨role, id, kind, span, children⟩ := n
  cases kind <;> first | exact ⟨rfl, rfl, rfl⟩ | exact absurd rfl h

theorem endsReturns_eq_false (hfunction : n.isFunctionLike = false)
    (hblock : n.isStaticBlock = false) (hexport : n.isExport = false) :
    n.kind.endsReturns = false := by
  obtain ⟨role, id, kind, span, children⟩ := n
  cases kind <;> simp_all [isFunctionLike, isStaticBlock, isExport]

theorem mayReturn_of_returnRoles {role : Role} (h : role ∈ n.kind.returnRoles) :
    n.kind.mayReturn = true := by
  obtain ⟨_, id, kind, span, children⟩ := n
  cases kind <;> first | rfl | cases h

theorem mayReturn_of_isReturn (h : n.isReturn = true) : n.kind.mayReturn = true := by
  unfold isReturn at h
  split at h
  · rename_i hkind
    rw [hkind, Kind.mayReturn]
  · cases h

/-- Every node after the first of a chain follows another one. -/
theorem exists_of_isChain {R : Node → Node → Prop} {l : List Node} (h : l.IsChain R) :
    ∀ p ∈ l.tail, ∃ q, R q p := by
  induction h with
  | nil => simp
  | singleton => simp
  | @cons_cons q p l hstep _ ih =>
    intro a ha
    rcases List.mem_cons.mp ha with rfl | ha
    · exact ⟨q, hstep⟩
    · exact ih a ha

/-- In a lowered file a return is found from a statement around it, unless the search ends in
between. -/
theorem isChain_isReturnPart {c : Cst} {f : Node} {outer : List Node} : (inner : List Node) →
    {m : Node} → {around : List Node} → (m, around) ∈ (Program.ofCst c).root.paths [] →
    m :: around = inner ++ n :: f :: outer → m.kind.mayReturn = true →
    (∀ p ∈ (inner ++ [n]).tail, p.kind.endsReturns = false) →
    (inner ++ [n]).IsChain fun part holder => isReturnPart holder part = true
  | [], _, _, _, _, _, _ => List.isChain_singleton n
  | a :: inner, m, around, hplace, heq, hreturn, hends => by
    obtain ⟨rfl, rfl⟩ := List.cons.inj heq
    rw [List.append_eq] at hplace
    -- The next node outwards is the first one of which the search has to follow a part.
    obtain ⟨p, q, rest, hp, hhead⟩ : ∃ p q rest, inner ++ n :: f :: outer = p :: q :: rest ∧
        (inner ++ [n]).head? = some p := by
      cases inner with
      | nil => exact ⟨n, f, outer, rfl, rfl⟩
      | cons b inner =>
        cases inner with
        | nil => exact ⟨b, n, _, rfl, rfl⟩
        | cons d inner => exact ⟨b, d, _, rfl, rfl⟩
    rw [hp] at hplace
    obtain ⟨hchild, hplace'⟩ := parent_mem_paths_root hplace
    have hmem : p ∈ inner ++ [n] := List.mem_of_head? hhead
    have hrole := (Program.regular_of_place hplace').mem_returnRoles hchild hreturn (hends p hmem)
    refine List.isChain_cons.mpr ⟨fun p' hp' => ?_, ?_⟩
    · obtain rfl : p = p' := Option.some.inj (hhead.symm.trans hp')
      exact List.contains_iff_mem.mpr hrole
    · exact isChain_isReturnPart inner hplace' hp.symm (mayReturn_of_returnRoles hrole)
        fun p hp => hends p (List.mem_of_mem_tail hp)

end Node

theorem Body.calls_iff {body : Body} {p : Node → Bool} :
    body.calls p = true ↔
      ∃ call ∈ body.node.ownNodes, call.isCall = true ∧ (call.get? .callee).any p = true := by
  have hcalls : body.calls p =
      body.node.ownNodes.any fun n => n.isCall && (n.get? .callee).any p := by
    have hcall (n : Node) : (match n.kind with
        | .callExpression _ => (n.get? .callee).any p
        | _ => false) = (n.isCall && (n.get? .callee).any p) := by
      unfold Node.isCall
      split <;> simp [*]
    cases body with
    | block node => exact congrArg node.ownNodes.any (funext hcall)
    | expression node => exact congrArg node.ownNodes.any (funext hcall)
  rw [hcalls]
  simp only [List.any_eq_true, Bool.and_eq_true]

namespace Model

variable {c : Cst} {f m block : Node} {body : Body}

private theorem eq_tail_append {n : Node} {inner around outer : List Node}
    (hsplit : m :: around = inner ++ n :: outer) : around = (inner ++ [n]).tail ++ outer := by
  cases inner with
  | nil => exact (List.cons.inj hsplit).2
  | cons a inner => simpa using (List.cons.inj hsplit).2

/-- A function holds its body. -/
theorem ancestors_of_body (hf : f ∈ (ofCst c).nodes) (hbody : f.functionBody? = some body) :
    f.isFunctionLike = true ∧ body.node ∈ (ofCst c).nodes ∧
      (ofCst c).ancestors body.node.id = f :: (ofCst c).ancestors f.id := by
  obtain ⟨outer, hplace⟩ := exists_place_of_mem_nodes hf
  unfold Node.functionBody? at hbody
  split_ifs at hbody with hfunction
  have hchild : body.node ∈ f.children := by
    rcases Option.or_eq_some_iff.mp hbody with hbody | ⟨-, hbody⟩
    · obtain ⟨node, hnode, rfl⟩ := Option.map_eq_some_iff.mp hbody
      exact List.mem_of_find?_eq_some hnode
    · obtain ⟨node, hnode, rfl⟩ := Option.map_eq_some_iff.mp hbody
      exact List.mem_of_find?_eq_some hnode
  have hplace' := Node.child_mem_paths _ hplace hchild
  refine ⟨hfunction, mem_nodes_of_place hplace', ?_⟩
  rw [ancestors_of_place hplace', ancestors_of_place hplace]

/-- A function encloses those nodes of its body from which no other function is met before the end
of the body. -/
theorem belongs_iff (hf : f ∈ (ofCst c).nodes) (hbody : f.functionBody? = some body)
    (hm : m ∈ (ofCst c).nodes) :
    (ofCst c).isWithin m.id body.node.id = true ∧ (ofCst c).enclosingFunction? m.id = some f ↔
      ∃ inner, m :: (ofCst c).ancestors m.id =
          inner ++ body.node :: (ofCst c).ancestors body.node.id ∧
        ∀ p ∈ (inner ++ [body.node]).tail, p.isFunctionLike = false := by
  obtain ⟨hfunction, hnode, hancestors⟩ := ancestors_of_body hf hbody
  rw [isWithin_iff_append hnode hm, hancestors, ← exists_and_right]
  refine exists_congr fun inner => and_congr_right fun hsplit => ?_
  -- The function is at one place on the way outwards only, right after its body.
  rw [enclosingFunction?, (isTree_ofCst c).find?_ancestors_eq_some_iff, eq_tail_append hsplit]
  constructor
  · rintro ⟨-, before, hbefore, hbetween⟩
    rwa [List.append_cancel_right hbefore]
  · exact fun hbetween => ⟨hfunction, _, rfl, hbetween⟩

/-- The search for calls reaches what belongs to the function. -/
theorem mem_ownNodes_iff (hf : f ∈ (ofCst c).nodes) (hbody : f.functionBody? = some body)
    (hm : m.isFunctionLike = false) :
    m ∈ body.node.ownNodes ↔ m ∈ (ofCst c).nodes ∧
      (ofCst c).isWithin m.id body.node.id = true ∧ (ofCst c).enclosingFunction? m.id = some f := by
  have hnode := (ancestors_of_body hf hbody).2.1
  rw [Node.ownNodes_eq]
  constructor
  · intro hown
    split_ifs at hown with hfunction
    · cases hown
    · rw [Bool.not_eq_true] at hfunction
      obtain ⟨hmem, inner, hsplit, hchain⟩ := (mem_reached_iff_ancestors hnode).mp hown
      rw [Node.isChain_passes] at hchain
      refine ⟨hmem, (belongs_iff hf hbody hmem).mpr ⟨inner, hsplit, fun p hp => ?_⟩⟩
      rcases List.mem_append.mp (List.mem_of_mem_tail hp) with hp | hp
      · exact hchain p hp
      · exact List.mem_singleton.mp hp ▸ hfunction
  · rintro ⟨hmem, hbelongs⟩
    obtain ⟨inner, hsplit, hbetween⟩ := (belongs_iff hf hbody hmem).mp hbelongs
    have hall : ∀ p ∈ inner ++ [body.node], p.isFunctionLike = false := by
      cases inner with
      | nil =>
        rw [← (List.cons.inj hsplit).1]
        simpa using hm
      | cons a inner =>
        obtain rfl := (List.cons.inj hsplit).1
        exact List.forall_mem_cons.mpr ⟨hm, hbetween⟩
    rw [if_neg (by simp [hall body.node (by simp)])]
    refine (mem_reached_iff_ancestors hnode).mpr ⟨hmem, inner, hsplit, ?_⟩
    exact Node.isChain_passes.mpr fun p hp => hall p (List.mem_append_left _ hp)

/-- Whether a node is a return in a block body whose function is the nearest around it, and stands
in no static block and no export inside the body. -/
def isOwnReturn (m : Model) (f block r : Node) : Bool :=
  r.isReturn && m.isWithin r.id block.id && (m.enclosingFunction? r.id).any (·.id == f.id) &&
    !(m.ancestors r.id).any fun n => (n.isStaticBlock || n.isExport) && m.isWithin n.id block.id

variable {r : Node}

theorem isOwnReturn_iff (hf : f ∈ (ofCst c).nodes) (hr : r ∈ (ofCst c).nodes) :
    (ofCst c).isOwnReturn f block r = true ↔
      r.isReturn = true ∧ ((ofCst c).isWithin r.id block.id = true ∧
        (ofCst c).enclosingFunction? r.id = some f) ∧
        ∀ n ∈ (ofCst c).ancestors r.id, (ofCst c).isWithin n.id block.id = true →
          n.isStaticBlock = false ∧ n.isExport = false := by
  have hnearest : ((ofCst c).enclosingFunction? r.id).any (·.id == f.id) = true ↔
      (ofCst c).enclosingFunction? r.id = some f :=
    (isTree_ofCst c).any_find?_ancestors_iff hr hf
  rw [isOwnReturn, Bool.and_eq_true, Bool.and_eq_true, Bool.and_eq_true, hnearest]
  simp only [Bool.not_eq_true', List.any_eq_false, Bool.and_eq_true, Bool.or_eq_true, not_and,
    and_assoc]
  refine and_congr_right fun _ => and_congr_right fun _ => and_congr_right fun _ =>
    forall_congr' fun n => forall_congr' fun _ => ?_
  cases n.isStaticBlock <;> cases n.isExport <;> simp

/-- The search for returns reaches those of the function that stand in no static block and no
export. -/
theorem mem_reached_isReturnPart_iff (hf : f ∈ (ofCst c).nodes)
    (hbody : f.functionBody? = some (.block block)) (hr : r ∈ (ofCst c).nodes)
    (hreturn : r.isReturn = true) :
    r ∈ block.reached Node.isReturnPart ↔
      ((ofCst c).isWithin r.id block.id = true ∧ (ofCst c).enclosingFunction? r.id = some f) ∧
        ∀ n ∈ (ofCst c).ancestors r.id, (ofCst c).isWithin n.id block.id = true →
          n.isStaticBlock = false ∧ n.isExport = false := by
  have htree := isTree_ofCst c
  obtain ⟨hfunction, hnode, hancestors⟩ := ancestors_of_body hf hbody
  have hbelongs := belongs_iff hf hbody hr
  rw [Body.node] at hnode hancestors hbelongs
  rw [mem_reached_iff_ancestors hnode, hbelongs]
  constructor
  · rintro ⟨-, inner, hsplit, hchain⟩
    have hparts : ∀ p ∈ (inner ++ [block]).tail,
        p.isFunctionLike = false ∧ p.isStaticBlock = false ∧ p.isExport = false := by
      intro p hp
      obtain ⟨q, hq⟩ := Node.exists_of_isChain hchain p hp
      exact Node.isFunctionLike_of_returnRoles
        (List.ne_nil_of_mem (List.contains_iff_mem.mp hq))
    refine ⟨⟨inner, hsplit, fun p hp => (hparts p hp).1⟩, fun n hn hwithin => ?_⟩
    rw [eq_tail_append hsplit] at hn
    rcases List.mem_append.mp hn with hn | hn
    · exact (hparts n hn).2
    · exact absurd (htree.lt_of_mem_ancestors hn) (Nat.not_lt.mpr (htree.le_of_isWithin hwithin))
  · rintro ⟨⟨inner, hsplit, hbetween⟩, houtside⟩
    refine ⟨hr, inner, hsplit, ?_⟩
    obtain ⟨around, hplace⟩ := exists_place_of_mem_nodes hr
    have hpath := hsplit
    rw [ancestors_of_place hplace, hancestors] at hpath
    refine Node.isChain_isReturnPart inner hplace hpath (Node.mayReturn_of_isReturn hreturn)
      fun p hp => ?_
    have haround : p ∈ (ofCst c).ancestors r.id := by
      rw [eq_tail_append hsplit]
      exact List.mem_append_left _ hp
    obtain ⟨hblock, hexport⟩ :=
      houtside p haround (isWithin_of_append hsplit (List.mem_of_mem_tail hp))
    exact Node.endsReturns_eq_false (hbetween p hp) hblock hexport

/-- A block body returns what the model says it does. -/
theorem returns_eq_ownReturns (hf : f ∈ (ofCst c).nodes)
    (hbody : f.functionBody? = some (.block block)) :
    block.returns =
      ((ofCst c).nodes.filter ((ofCst c).isOwnReturn f block)).flatMap (·.all .argument) := by
  rw [Node.returns_eq]
  have hblock := (ancestors_of_body hf hbody).2.1
  refine congrArg (List.flatMap _) (filter_reached_eq hblock fun r hr => ?_)
  rw [isOwnReturn_iff hf hr, and_comm (b := r.isReturn = true)]
  exact and_congr_right fun hreturn => (mem_reached_isReturnPart_iff hf hbody hr hreturn).symm

/-- **What a body calls and returns is what its function encloses.** Of a function or an arrow
function of a lowered file, the body calls something of which `p` holds exactly if there is a call
of it in the body whose nearest function is that function. If the body is a block, the expressions
that it returns are the arguments, in visiting order, of those returns in it whose nearest function
is that function and that stand in no static block and no export inside the body. -/
theorem bodies_agree_with_enclosing_functions (c : Cst) :
    (∀ f ∈ (ofCst c).nodes, ∀ body, f.functionBody? = some body → ∀ p : Node → Bool,
      (body.calls p = true ↔
        ∃ call ∈ (ofCst c).nodes, call.isCall = true ∧
          (ofCst c).isWithin call.id body.node.id = true ∧
          (ofCst c).enclosingFunction? call.id = some f ∧ (call.get? .callee).any p = true)) ∧
    (∀ f ∈ (ofCst c).nodes, ∀ block, f.functionBody? = some (.block block) →
      (returnedExpressions block =
        ((ofCst c).nodes.filter ((ofCst c).isOwnReturn f block)).flatMap (·.all .argument)) ∧
      ∀ r ∈ (ofCst c).nodes, (ofCst c).isOwnReturn f block r = true ↔
        r.isReturn = true ∧ ((ofCst c).isWithin r.id block.id = true ∧
          (ofCst c).enclosingFunction? r.id = some f) ∧
          ∀ n ∈ (ofCst c).ancestors r.id, (ofCst c).isWithin n.id block.id = true →
            n.isStaticBlock = false ∧ n.isExport = false) := by
  refine ⟨fun f hf body hbody p => ?_, fun f hf block hbody =>
    ⟨returns_eq_ownReturns hf hbody, fun r hr => isOwnReturn_iff hf hr⟩⟩
  rw [Body.calls_iff]
  constructor
  · rintro ⟨call, hown, hcall, hp⟩
    obtain ⟨hmem, hwithin, hnearest⟩ :=
      (mem_ownNodes_iff hf hbody (Node.isFunctionLike_of_isCall hcall)).mp hown
    exact ⟨call, hmem, hcall, hwithin, hnearest, hp⟩
  · rintro ⟨call, hmem, hcall, hwithin, hnearest, hp⟩
    exact ⟨call, (mem_ownNodes_iff hf hbody (Node.isFunctionLike_of_isCall hcall)).mpr
      ⟨hmem, hwithin, hnearest⟩, hcall, hp⟩

/-- The tree of
`function f() { const g = () => { return h(); }; if (g()) { return a; } return b; }`, most tokens
left out. -/
private def nestedReturns : Cst :=
  ⟨"program", true, "", ⟨0, 82⟩, "", [
    ⟨"function_declaration", true, "", ⟨0, 82⟩, "", [
      ⟨"identifier", true, "name", ⟨9, 10⟩, "f", []⟩,
      ⟨"formal_parameters", true, "parameters", ⟨10, 12⟩, "()", []⟩,
      ⟨"statement_block", true, "body", ⟨13, 82⟩, "", [
        ⟨"lexical_declaration", true, "", ⟨15, 47⟩, "", [
          ⟨"const", false, "kind", ⟨15, 20⟩, "const", []⟩,
          ⟨"variable_declarator", true, "", ⟨21, 46⟩, "", [
            ⟨"identifier", true, "name", ⟨21, 22⟩, "g", []⟩,
            ⟨"arrow_function", true, "value", ⟨25, 46⟩, "", [
              ⟨"formal_parameters", true, "parameters", ⟨25, 27⟩, "()", []⟩,
              ⟨"statement_block", true, "body", ⟨31, 46⟩, "", [
                ⟨"return_statement", true, "", ⟨33, 44⟩, "", [
                  ⟨"call_expression", true, "", ⟨40, 43⟩, "h()", [
                    ⟨"identifier", true, "function", ⟨40, 41⟩, "h", []⟩,
                    ⟨"arguments", true, "arguments", ⟨41, 43⟩, "()", []⟩]⟩]⟩]⟩]⟩]⟩]⟩,
        ⟨"if_statement", true, "", ⟨48, 70⟩, "", [
          ⟨"parenthesized_expression", true, "condition", ⟨51, 56⟩, "(g())", [
            ⟨"call_expression", true, "", ⟨52, 55⟩, "g()", [
              ⟨"identifier", true, "function", ⟨52, 53⟩, "g", []⟩,
              ⟨"arguments", true, "arguments", ⟨53, 55⟩, "()", []⟩]⟩]⟩,
          ⟨"statement_block", true, "consequence", ⟨57, 70⟩, "", [
            ⟨"return_statement", true, "", ⟨59, 68⟩, "", [
              ⟨"identifier", true, "", ⟨66, 67⟩, "a", []⟩]⟩]⟩]⟩,
        ⟨"return_statement", true, "", ⟨71, 80⟩, "", [
          ⟨"identifier", true, "", ⟨78, 79⟩, "b", []⟩]⟩]⟩]⟩]⟩

/-- A function that holds another one neither calls nor returns what the other one does. -/
theorem nested_function_keeps_its_returns :
    ∃ f ∈ (ofCst nestedReturns).nodes, ∃ block, f.functionBody? = some (.block block) ∧
      (returnedExpressions block).map Node.label = ["a", "b"] ∧
      (((ofCst nestedReturns).nodes.filter
        ((ofCst nestedReturns).isOwnReturn f block)).flatMap (·.all .argument)).map Node.label =
          ["a", "b"] ∧
      (∃ call ∈ (ofCst nestedReturns).nodes, call.isCall = true ∧
        (ofCst nestedReturns).isWithin call.id block.id = true ∧
        (ofCst nestedReturns).enclosingFunction? call.id = some f ∧
        (call.get? .callee).any (·.label == "g") = true) ∧
      ¬ ∃ call ∈ (ofCst nestedReturns).nodes, call.isCall = true ∧
        (ofCst nestedReturns).isWithin call.id block.id = true ∧
        (ofCst nestedReturns).enclosingFunction? call.id = some f ∧
        (call.get? .callee).any (·.label == "h") = true := by
  obtain ⟨hcalls, hreturns⟩ := bodies_agree_with_enclosing_functions nestedReturns
  have hvalues : (ofCst nestedReturns).nodes[1]?.map (fun f => f.functionBody?.map fun body =>
      (body matches .block _, body.returned.map Node.label, body.calls (·.label == "g"),
        body.calls (·.label == "h"))) = some (some (true, ["a", "b"], true, false)) := by
    decide +kernel
  obtain ⟨f, hf, hvalues⟩ := Option.map_eq_some_iff.mp hvalues
  obtain ⟨body, hbody, hvalues⟩ := Option.map_eq_some_iff.mp hvalues
  have hmem := List.mem_of_getElem? hf
  cases body with
  | block block =>
    obtain ⟨-, hlabels, hg, hh⟩ : True ∧ (returnedExpressions block).map Node.label = ["a", "b"] ∧
        (Body.block block).calls (·.label == "g") = true ∧
        (Body.block block).calls (·.label == "h") = false := by
      simpa [Body.returned] using hvalues
    refine ⟨f, hmem, block, hbody, hlabels, ?_, (hcalls f hmem _ hbody _).mp hg, fun hcall => ?_⟩
    · rw [← (hreturns f hmem block hbody).1]
      exact hlabels
    · rw [(hcalls f hmem _ hbody _).mpr hcall] at hh
      cases hh
  | expression node => simp at hvalues

end Model

end TsxLint
