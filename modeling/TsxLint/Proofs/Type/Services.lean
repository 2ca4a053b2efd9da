import TsxLint.Lowering.Lower
import TsxLint.Proofs.Type.Reachability

/-!
# Types that a service knows

A type service answers for some nodes and is silent about others. A verdict asks it about the
annotation it is given and about nothing inside: where the service is silent, the annotation is read
as written, through unions, wrappers and aliases, and no answer about a part of it counts. So a
union has a shape exactly if a member has it as written, which is not always what the verdict on
that member says.

## Main definitions

* `Shapes.asWritten`: the declarations of a file without a type service.
* `Shapes.unionVerdicts`: the verdicts that hold of a union when they hold of a member.

## Main results

* `Shapes.verdict_eq_asWritten`: what a verdict says where the service is silent.
* `Shapes.union_existential_unless_overruled`: unions and their members, and when the verdicts on
  the members decide.
* `Shapes.answer_about_member_is_ignored`: a member whose type is known not to be an array.
-/

namespace TsxLint

namespace Shapes

/-- The declarations of a file without a type service. -/
def asWritten (s : Shapes) : Shapes := ⟨s.aliases, none⟩

/-- The verdicts that hold of a union when they hold of a member. -/
def unionVerdicts : List (Shapes → Node → Bool) :=
  [isArray, isBoolean, isFunction, isObject, isComponentConstructor, (containsElement · .node),
    (containsElement · .element)]

variable {s : Shapes} {n : Node} {p : Shapes → Node → Bool}

theorem decide_of_silent (hsilent : s.resolved? n = none) (known : ResolvedType → Bool)
    (written : Bool) : s.decide n known written = written := by
  rw [decide, hsilent]

/-- A verdict is what the service knows or else what a walk finds, whatever service there is. -/
theorem exists_walk_of_verdict (hp : p ∈ unionVerdicts) (t : AliasTable) :
    ∃ (w : AliasTable.Walk) (leaf : Node → Bool) (known : ResolvedType → Bool),
      ∀ (types : Option TypeService) (n : Node),
        p ⟨t, types⟩ n = decide ⟨t, types⟩ n known (AliasTable.meets t w leaf .empty n).1.1 := by
  simp only [unionVerdicts, List.mem_cons, List.not_mem_nil, or_false] at hp
  rcases hp with rfl | rfl | rfl | rfl | rfl | rfl | rfl
  case inr.inr.inr.inl => exact ⟨.plain, isObjectLeaf ⟨t, none⟩, _, fun _ _ => rfl⟩
  all_goals exact ⟨_, _, _, fun _ _ => rfl⟩

/-- Where the service is silent about an annotation, the verdict is about the annotation as
written, whatever the service knows about its parts. -/
theorem verdict_eq_asWritten (hp : p ∈ unionVerdicts) (hsilent : s.resolved? n = none) :
    p s n = p s.asWritten n := by
  obtain ⟨w, leaf, known, hwalk⟩ := exists_walk_of_verdict hp s.aliases
  have hs : p s n = s.decide n known (AliasTable.meets s.aliases w leaf .empty n).1.1 :=
    hwalk s.types n
  rw [hs, asWritten, hwalk none n, decide_of_silent hsilent, decide_of_silent rfl]

theorem parts?_of_union (hn : n.kind = .unionType) (w : AliasTable.Walk) :
    w.parts? n.kind = some [.element] := by
  rw [hn]
  rfl

/-- A union has a shape as written exactly if a member has it as written. -/
theorem asWritten_union_iff (hp : p ∈ unionVerdicts) (hn : n.kind = .unionType) :
    p s.asWritten n = true ↔ ∃ m ∈ n.all .element, p s.asWritten m = true := by
  obtain ⟨w, leaf, known, hwalk⟩ := exists_walk_of_verdict hp s.aliases
  simp only [asWritten, hwalk none, decide_of_silent (s := ⟨s.aliases, none⟩) rfl,
    AliasTable.meets_of_parts (parts?_of_union hn w), AliasTable.mem_all, List.mem_singleton,
    and_assoc]

/-- **A union has a shape exactly if a member has it as written.** Take any type service, and a
union that it is silent about. The verdict on the union is about the union as written, at any depth, and
holds exactly if that on some member as written does. It holds exactly if the verdict on some member
does, the service's answers included, if and only if a member that the service is silent about has
the shape, or the members that it answers for have the shape as written just in case they have it
according to the answers. -/
theorem union_existential_unless_overruled (s : Shapes) (n : Node) (hn : n.kind = .unionType)
    (hsilent : s.resolved? n = none) (p : Shapes → Node → Bool) (hp : p ∈ unionVerdicts) :
    p s n = p s.asWritten n ∧
    (p s n = true ↔ ∃ m ∈ n.all .element, p s.asWritten m = true) ∧
    ((p s n = true ↔ ∃ m ∈ n.all .element, p s m = true) ↔
      (∃ m ∈ n.all .element, s.resolved? m = none ∧ p s m = true) ∨
      ((∃ m ∈ n.all .element, s.resolved? m ≠ none ∧ p s.asWritten m = true) ↔
        ∃ m ∈ n.all .element, s.resolved? m ≠ none ∧ p s m = true)) := by
  have hwritten : p s n = true ↔ ∃ m ∈ n.all .element, p s.asWritten m = true := by
    rw [verdict_eq_asWritten hp hsilent, asWritten_union_iff hp hn]
  refine ⟨verdict_eq_asWritten hp hsilent, hwritten, ?_⟩
  have hparts (q : Node → Prop) : (∃ m ∈ n.all .element, q m) ↔
      (∃ m ∈ n.all .element, s.resolved? m = none ∧ q m) ∨
        ∃ m ∈ n.all .element, s.resolved? m ≠ none ∧ q m := by
    simp only [← exists_or, ← and_or_left, ← or_and_right, em, true_and]
  have hsame : (∃ m ∈ n.all .element, s.resolved? m = none ∧ p s.asWritten m = true) ↔
      ∃ m ∈ n.all .element, s.resolved? m = none ∧ p s m = true := by
    refine exists_congr fun m => and_congr_right fun _ => and_congr_right fun hm => ?_
    rw [verdict_eq_asWritten hp hm]
  rw [hwritten, hparts (p s.asWritten · = true), hparts (p s · = true), hsame]
  by_cases hopen : ∃ m ∈ n.all .element, s.resolved? m = none ∧ p s m = true
  · simp only [hopen, true_or]
  · simp only [hopen, false_or]

/-- The tree of `type P = Foo[] | string;`, most tokens left out. -/
private def arrayUnion : Cst :=
  ⟨"program", true, "", ⟨0, 24⟩, "", [
    ⟨"type_alias_declaration", true, "", ⟨0, 24⟩, "", [
      ⟨"type_identifier", true, "name", ⟨5, 6⟩, "P", []⟩,
      ⟨"union_type", true, "value", ⟨9, 23⟩, "Foo[] | string", [
        ⟨"array_type", true, "", ⟨9, 14⟩, "Foo[]", [
          ⟨"type_identifier", true, "", ⟨9, 12⟩, "Foo", []⟩]⟩,
        ⟨"predefined_type", true, "", ⟨17, 23⟩, "string", []⟩]⟩]⟩]⟩

/-- The array `Foo[]`. -/
private def arrayMember : Node :=
  ⟨.element, 4, .arrayType, ⟨9, 14⟩, [⟨.element, 5, .typeReference, ⟨9, 12⟩, [
    ⟨.name, 6, .typeName ["Foo"], ⟨9, 12⟩, []⟩]⟩]⟩

/-- The keyword `string`. -/
private def stringMember : Node := ⟨.element, 7, .keywordType .string, ⟨17, 23⟩, []⟩

/-- The annotation of `P`. -/
private def unionOfArray : Node :=
  ⟨.type, 3, .unionType, ⟨9, 23⟩, [arrayMember, stringMember]⟩

/-- The declarations of the file, with a service that knows `Foo[]` to be `any`. -/
private def anyAnswered : Shapes where
  aliases := .ofModel (.ofProgram (Program.ofCst arrayUnion))
  types := some fun id =>
    if id = 4 then some { (default : ResolvedType) with text := "any" } else none

private theorem arrayMember_mem : arrayMember ∈ unionOfArray.all .element :=
  AliasTable.mem_all.mpr ⟨by simp [unionOfArray], rfl⟩

private theorem isArray_arrayMember_asWritten : isArray anyAnswered.asWritten arrayMember = true :=
  (AliasTable.meets_of_stop (w := .plain) (by rfl)).mpr (Or.inl (by rfl))

private theorem isArray_member_eq_false :
    ∀ m ∈ unionOfArray.all .element, isArray anyAnswered m = false := by
  intro m hm
  have hmember : m = arrayMember ∨ m = stringMember := by
    have hall : unionOfArray.all .element = [arrayMember, stringMember] := by rfl
    simpa [hall] using hm
  rcases hmember with rfl | rfl
  · rfl
  · rw [Bool.eq_false_iff]
    intro harray
    rcases (AliasTable.meets_of_stop (w := .plain) (by rfl)).mp harray with hleaf | ⟨_, hname, -⟩
    · cases hleaf
    · cases hname

/-- The verdict on the union is not decided by those on its members, of which one is an array as
written and `any` by the answer about it. -/
theorem union_of_overruled_array :
    unionOfArray.kind = .unionType ∧ anyAnswered.resolved? unionOfArray = none ∧
    isArray ∈ unionVerdicts ∧ isArray anyAnswered unionOfArray = true ∧
    ¬ (isArray anyAnswered unionOfArray = true ↔
      ∃ m ∈ unionOfArray.all .element, isArray anyAnswered m = true) := by
  have hp : isArray ∈ unionVerdicts := List.mem_cons_self
  obtain ⟨-, hwritten, hlaw⟩ :=
    union_existential_unless_overruled anyAnswered unionOfArray (by rfl) (by rfl) isArray hp
  refine ⟨by rfl, by rfl, hp,
    hwritten.mpr ⟨_, arrayMember_mem, isArray_arrayMember_asWritten⟩, ?_⟩
  rw [hlaw]
  rintro (⟨m, hm, -, hverdict⟩ | hanswered)
  · rw [isArray_member_eq_false m hm] at hverdict
    cases hverdict
  · have hanswer : anyAnswered.resolved? arrayMember ≠ none := by
      simp [resolved?, anyAnswered, arrayMember]
    obtain ⟨m, hm, -, hverdict⟩ :=
      hanswered.mp ⟨_, arrayMember_mem, hanswer, isArray_arrayMember_asWritten⟩
    rw [isArray_member_eq_false m hm] at hverdict
    cases hverdict

/-- The answer about a member is ignored: the service is silent about the union and knows that one
member is no array, the other is none as written, and still the union counts as an array. -/
theorem answer_about_member_is_ignored :
    anyAnswered.aliases.alias? "P" = some unionOfArray ∧
    unionOfArray.kind = .unionType ∧ anyAnswered.resolved? unionOfArray = none ∧
    isArray anyAnswered unionOfArray = true ∧
    ∀ m ∈ unionOfArray.all .element, isArray anyAnswered m = false := by
  refine ⟨by rfl, by rfl, by rfl, ?_, isArray_member_eq_false⟩
  rw [verdict_eq_asWritten List.mem_cons_self (by rfl),
    asWritten_union_iff List.mem_cons_self (by rfl)]
  exact ⟨_, arrayMember_mem, isArray_arrayMember_asWritten⟩

end Shapes

end TsxLint
