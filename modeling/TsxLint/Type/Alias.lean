import TsxLint.Binding.Model
import TsxLint.Guard

/-!
# Aliases and interfaces

The type aliases and interfaces that a file declares, by name, wherever they stand. The first alias
of a name counts; all declarations of an interface do. `AliasTable.reach` lists what an annotation
leads to: through wrappers, the members of unions and intersections, and the names of local aliases,
each entered at most once on a path.

## Main definitions

* `AliasTable`, `AliasTable.ofModel`: the declarations of a file.
* `Walk`, `AliasTable.reach`: which steps a walk takes, and the types it reaches.
* `AliasTable.meets`: whether a walk meets a type of some shape.
-/

namespace TsxLint

/-- The declared aliases with their right-hand sides, and the declared interfaces. -/
structure AliasTable where
  aliases : List (String × Node)
  interfaceList : List (String × Node)

namespace AliasTable

/-- The alias that a node declares. -/
def aliasOf? (n : Node) : Option (String × Node) :=
  match n.kind with
  | .typeAliasDeclaration =>
    match n.nameAt? .name, n.get? .type with
    | some name, some type => some (name, type)
    | _, _ => none
  | _ => none

/-- The interface that a node declares. -/
def interfaceOf? (n : Node) : Option (String × Node) :=
  match n.kind with
  | .interfaceDeclaration => (n.nameAt? .name).map fun name => (name, n)
  | _ => none

/-- The declarations among nodes. -/
def ofNodes (nodes : List Node) : AliasTable :=
  ⟨nodes.filterMap aliasOf?, nodes.filterMap interfaceOf?⟩

/-- The declarations of a file. -/
def ofModel (m : Model) : AliasTable := ofNodes m.nodes

/-- The right-hand side of an alias. -/
def alias? (t : AliasTable) (name : String) : Option Node := t.aliases.lookup name

/-- All declarations of an interface. -/
def interfaces (t : AliasTable) (name : String) : List Node :=
  (t.interfaceList.filter (·.1 == name)).map Prod.snd

/-- Whether an interface of the name is declared. -/
def isInterface (t : AliasTable) (name : String) : Bool := !(t.interfaces name).isEmpty

/-- The members of an interface, all its declarations taken together, or of an alias that is an
object type. -/
def members? (t : AliasTable) (name : String) : Option (List Node) :=
  if t.isInterface name then some ((t.interfaces name).flatMap (·.all .member))
  else
    (t.alias? name).bind fun type =>
      match type.bareType.kind with
      | .typeLiteral => some (type.bareType.all .member)
      | _ => none

/-- The declared names. -/
def names (t : AliasTable) : List String :=
  t.aliases.map Prod.fst ++ t.interfaceList.map Prod.fst

/-- Which steps a walk through types takes beside wrappers, unions and intersections. -/
structure Walk where
  throughOperators : Bool
  throughHeritage : Bool
  deriving DecidableEq, Repr

/-- The walk that stops at operators and follows aliases only. -/
def Walk.plain : Walk := ⟨false, false⟩

/-- The roles of the parts that a walk goes on to inside a type, if it does not stop at it. -/
def Walk.parts? (w : Walk) : Kind → Option (List Role)
  | .parenthesizedType | .optionalType => some [.type]
  | .typeOperator _ => if w.throughOperators then some [.type] else none
  | .unionType | .intersectionType => some [.element]
  | _ => none

/-- The types that a name leads to: the right-hand side of the alias, or else what the interfaces
of that name extend. -/
def hop (t : AliasTable) (w : Walk) (name : String) : List Node :=
  match t.alias? name with
  | some type => [type]
  | none => if w.throughHeritage then (t.interfaces name).flatMap (·.all .base) else []

mutual

/-- The types that a walk stops at, in the order in which it meets them. -/
def reach (t : AliasTable) (w : Walk) (guard : Guard) (n : Node) : List Node :=
  match w.parts? n.kind with
  | some roles => reachAt t w guard roles n.children
  | none =>
    n ::
      match n.localTypeName? with
      | none => []
      | some name =>
        if guard.isActive name = true then []
        else if name ∈ t.names then reachAll t w (guard.enter name).2 (t.hop w name)
        else []
termination_by (guard.unvisited t.names, sizeOf n)
decreasing_by
  · obtain ⟨role, id, kind, span, children⟩ := n
    apply Prod.Lex.right
    simp only [Node.mk.sizeOf_spec]
    omega
  · exact Prod.Lex.left _ _ (Guard.unvisited_enter_lt ‹_› (by simpa using ‹¬guard.isActive name = true›))

/-- The types reached from the nodes under some roles. -/
def reachAt (t : AliasTable) (w : Walk) (guard : Guard) (roles : List Role) (ns : List Node) :
    List Node :=
  match ns with
  | [] => []
  | n :: rest =>
    (if roles.contains n.role then reach t w guard n else []) ++ reachAt t w guard roles rest
termination_by (guard.unvisited t.names, sizeOf ns)

/-- The types reached from a list of types. -/
def reachAll (t : AliasTable) (w : Walk) (guard : Guard) (ns : List Node) : List Node :=
  match ns with
  | [] => []
  | n :: rest => reach t w guard n ++ reachAll t w guard rest
termination_by (guard.unvisited t.names, sizeOf ns)

end

mutual

/-- Whether a walk meets a type of a shape, with the guard as the walk leaves it. The walk ends at
the first such type. Names that it enters it leaves again, so the guard comes back as it was. -/
def meets (t : AliasTable) (w : Walk) (leaf : Node → Bool) (guard : Guard) (n : Node) :
    { r : Bool × Guard // r.2 = guard } :=
  match w.parts? n.kind with
  | some roles => meetsAt t w leaf guard roles n.children
  | none =>
    if leaf n then ⟨(true, guard), rfl⟩
    else
      match n.localTypeName? with
      | none => ⟨(false, guard), rfl⟩
      | some name =>
        if active : guard.isActive name = true then ⟨(false, guard), rfl⟩
        else if name ∈ t.names then
          let inside := meetsAny t w leaf (guard.enter name).2 (t.hop w name)
          ⟨(inside.1.1, inside.1.2.leave name), by
            rw [inside.2]
            exact Guard.leave_enter (by simpa using active)⟩
        else ⟨(false, guard), rfl⟩
termination_by (guard.unvisited t.names, sizeOf n)
decreasing_by
  · obtain ⟨role, id, kind, span, children⟩ := n
    apply Prod.Lex.right
    simp only [Node.mk.sizeOf_spec]
    omega
  · exact Prod.Lex.left _ _ (Guard.unvisited_enter_lt ‹_› (by simpa using active))

/-- Whether a walk meets a type of a shape from the nodes under some roles. -/
def meetsAt (t : AliasTable) (w : Walk) (leaf : Node → Bool) (guard : Guard) (roles : List Role)
    (ns : List Node) : { r : Bool × Guard // r.2 = guard } :=
  match ns with
  | [] => ⟨(false, guard), rfl⟩
  | n :: rest =>
    if roles.contains n.role then
      match meets t w leaf guard n with
      | ⟨(true, after), same⟩ => ⟨(true, after), same⟩
      | ⟨(false, after), same⟩ =>
        let others := meetsAt t w leaf after roles rest
        ⟨others.1, others.2.trans same⟩
    else meetsAt t w leaf guard roles rest
termination_by (guard.unvisited t.names, sizeOf ns)
decreasing_by
  · apply Prod.Lex.right
    simp only [List.cons.sizeOf_spec]
    omega
  · have same : after = guard := same
    subst same
    apply Prod.Lex.right
    simp only [List.cons.sizeOf_spec]
    omega
  · apply Prod.Lex.right
    simp only [List.cons.sizeOf_spec]
    omega

/-- Whether a walk meets a type of a shape from a list of types. -/
def meetsAny (t : AliasTable) (w : Walk) (leaf : Node → Bool) (guard : Guard) (ns : List Node) :
    { r : Bool × Guard // r.2 = guard } :=
  match ns with
  | [] => ⟨(false, guard), rfl⟩
  | n :: rest =>
    match meets t w leaf guard n with
    | ⟨(true, after), same⟩ => ⟨(true, after), same⟩
    | ⟨(false, after), same⟩ =>
      let others := meetsAny t w leaf after rest
      ⟨others.1, others.2.trans same⟩
termination_by (guard.unvisited t.names, sizeOf ns)
decreasing_by
  · apply Prod.Lex.right
    simp only [List.cons.sizeOf_spec]
    omega
  · have same : after = guard := same
    subst same
    apply Prod.Lex.right
    simp only [List.cons.sizeOf_spec]
    omega

end

end AliasTable

end TsxLint
