import TsxLint.Proofs.Type.Reachability

/-!
# Readonly types

A type is readonly by rules: some types are given, wrappers, unions and intersections need what they
hold to be readonly, and a name needs the right-hand side of its alias to be. The verdict asks for
all members at once, and it refuses a name that it is working on. It is right to do so: a derivation
that comes back to a name rests on a smaller derivation for the same alias, which can stand where
the alias was entered first. So whatever has a derivation has one that enters no name twice on a
path, and the verdict finds it.

## Main definitions

* `AliasTable.Readonly`: the types that the rules derive.
* `AliasTable.ReadonlyWithout`: derivations that enter no name twice on a path.
* `AliasTable.Needs`: what a type has to rest on to be readonly.

## Main results

* `AliasTable.readonlyIn_iff`: the verdict finds the derivations that enter no name twice.
* `AliasTable.readonly_iff_readonlyWithout`: nothing is lost by refusing names in progress.
* `Shapes.isReadonly_is_least`: the verdict holds of the types that the rules derive.
-/

namespace TsxLint

namespace AliasTable

variable {t : AliasTable} {n m : Node} {name : String} {avoid : List String}

/-! ### Rules -/

/-- The types that the rules derive to be readonly. A wrapper has one inner type. -/
inductive Readonly (t : AliasTable) : Node → Prop
  | operator {n : Node} (hn : n.kind = .typeOperator .readonly) : Readonly t n
  | keyword {n : Node} {keyword : TypeKeyword} (hn : n.kind = .keywordType keyword)
      (hkeyword : keyword.isImmutable = true) : Readonly t n
  | literal {n : Node} {value : TypeLiteralValue} (hn : n.kind = .literalType value) : Readonly t n
  | container {n : Node} (hn : n.kind = .typeReference)
      (hlast : n.lastSegment ∈ readonlyContainers) : Readonly t n
  | wrapped {n : Node} (hn : n.kind = .parenthesizedType ∨ n.kind = .optionalType)
      (hsome : n.all .type ≠ []) (hinner : ∀ m ∈ n.all .type, Readonly t m) : Readonly t n
  | members {n : Node} (hn : n.kind = .unionType ∨ n.kind = .intersectionType)
      (hsome : n.all .element ≠ []) (hmembers : ∀ m ∈ n.all .element, Readonly t m) : Readonly t n
  | aliased {n m : Node} {name : String} (hname : n.localTypeName? = some name)
      (hother : n.lastSegment ∉ readonlyContainers) (halias : t.alias? name = some m)
      (htype : Readonly t m) : Readonly t n

/-- The role of what a wrapper, a union or an intersection holds. -/
def heldRole? : Kind → Option Role
  | .parenthesizedType | .optionalType => some .type
  | .unionType | .intersectionType => some .element
  | _ => none

/-- What a type has to rest on to be readonly: what it holds, or the right-hand side of an alias. -/
inductive Needs (t : AliasTable) : Node → Node → Prop
  | held {n m : Node} {role : Role} (hrole : heldRole? n.kind = some role) (hm : m ∈ n.all role) :
      Needs t n m
  | aliased {n m : Node} {name : String} (hname : n.localTypeName? = some name)
      (hother : n.lastSegment ∉ readonlyContainers) (halias : t.alias? name = some m) :
      Needs t n m

/-! ### Derivations without a name twice -/

/-- Whether a type is readonly whatever the aliases are. -/
def isGiven (n : Node) : Bool :=
  match n.kind with
  | .typeOperator operator => operator == .readonly
  | .keywordType keyword => keyword.isImmutable
  | .literalType _ => true
  | .typeReference => readonlyContainers.contains n.lastSegment
  | _ => false

/-- The types with a derivation that enters no name twice on a path, and none of those to avoid. -/
inductive ReadonlyWithout (t : AliasTable) : List String → Node → Prop
  | given {avoid : List String} {n : Node} (hn : isGiven n = true) : ReadonlyWithout t avoid n
  | held {avoid : List String} {n : Node} {role : Role} (hrole : heldRole? n.kind = some role)
      (hsome : n.all role ≠ []) (hall : ∀ m ∈ n.all role, ReadonlyWithout t avoid m) :
      ReadonlyWithout t avoid n
  | hop {avoid : List String} {n m : Node} {name : String} (hname : n.localTypeName? = some name)
      (hidle : name ∉ avoid) (halias : t.alias? name = some m)
      (htype : ReadonlyWithout t (name :: avoid) m) : ReadonlyWithout t avoid n

theorem isGiven_of_heldRole? {role : Role} (hrole : heldRole? n.kind = some role) :
    isGiven n = false := by
  unfold heldRole? at hrole
  unfold isGiven
  split at hrole <;> simp_all

namespace ReadonlyWithout

/-- With fewer names to avoid there are at least as many derivations. -/
theorem mono (h : t.ReadonlyWithout avoid n) {avoid' : List String}
    (hsub : ∀ name ∈ avoid', name ∈ avoid) : t.ReadonlyWithout avoid' n := by
  induction h generalizing avoid' with
  | given hn => exact .given hn
  | held hrole hsome _ ih => exact .held hrole hsome fun m hm => ih m hm hsub
  | hop hname hidle halias _ ih =>
    refine .hop hname (fun hname' => hidle (hsub _ hname')) halias (ih fun other hother => ?_)
    rcases List.mem_cons.mp hother with rfl | hother
    · exact List.mem_cons_self
    · exact List.mem_cons_of_mem _ (hsub other hother)

/-- A derivation avoids a further name, or some part of it derives the alias of that name without
entering it. -/
theorem avoid_or_restart (h : t.ReadonlyWithout avoid n) (name : String) :
    t.ReadonlyWithout (name :: avoid) n ∨
      ∃ m, t.alias? name = some m ∧ t.ReadonlyWithout (name :: avoid) m := by
  induction h with
  | given hn => exact Or.inl (.given hn)
  | @held avoid n role hrole hsome _ ih =>
    by_cases hrestart : ∃ m, t.alias? name = some m ∧ t.ReadonlyWithout (name :: avoid) m
    · exact Or.inr hrestart
    · exact Or.inl (.held hrole hsome fun m hm => (ih m hm).resolve_right hrestart)
  | @hop avoid n m entered hname hidle halias htype ih =>
    by_cases heq : entered = name
    · subst heq
      exact Or.inr ⟨m, halias, htype⟩
    · rcases ih with ih | ⟨m', halias', ih⟩
      · refine Or.inl (.hop hname (by simp [heq, hidle]) halias (ih.mono ?_))
        simp +contextual
      · exact Or.inr ⟨m', halias', ih.mono (by simp +contextual)⟩

theorem iff_of_held {role : Role} (hrole : heldRole? n.kind = some role) :
    t.ReadonlyWithout avoid n ↔
      n.all role ≠ [] ∧ ∀ m ∈ n.all role, t.ReadonlyWithout avoid m := by
  constructor
  · rintro (hgiven | ⟨hrole', hsome, hall⟩ | ⟨hname, -, -, -⟩)
    · rw [isGiven_of_heldRole? hrole] at hgiven
      cases hgiven
    · obtain rfl := Option.some.inj (hrole.symm.trans hrole')
      exact ⟨hsome, hall⟩
    · rw [(kind_of_localTypeName? hname).1] at hrole
      cases hrole
  · rintro ⟨hsome, hall⟩
    exact .held hrole hsome hall

theorem iff_of_not_held (hrole : heldRole? n.kind = none) :
    t.ReadonlyWithout avoid n ↔ isGiven n = true ∨ ∃ name m, n.localTypeName? = some name ∧
      name ∉ avoid ∧ t.alias? name = some m ∧ t.ReadonlyWithout (name :: avoid) m := by
  constructor
  · rintro (hgiven | ⟨hrole', -, -⟩ | ⟨hname, hidle, halias, htype⟩)
    · exact Or.inl hgiven
    · rw [hrole] at hrole'
      cases hrole'
    · exact Or.inr ⟨_, _, hname, hidle, halias, htype⟩
  · rintro (hgiven | ⟨name, m, hname, hidle, halias, htype⟩)
    · exact .given hgiven
    · exact .hop hname hidle halias htype

end ReadonlyWithout

/-! ### The verdict -/

theorem any_role_iff {role : Role} : n.children.any (·.role == role) = true ↔ n.all role ≠ [] := by
  simp [Node.all, List.filter_eq_nil_iff]

theorem readonlyAt_iff (guard : Guard) (role : Role) (ns : List Node) :
    t.readonlyAt guard role ns = true ↔
      ∀ n ∈ ns, n.role = role → t.readonlyIn guard n = true := by
  induction ns with
  | nil => simp [readonlyAt]
  | cons n ns ih =>
    rw [readonlyAt, Bool.and_eq_true, ih, List.forall_mem_cons]
    by_cases hrole : n.role = role <;> simp [hrole]

/-- A wrapper, a union or an intersection is readonly if it holds something and all that it holds
is. -/
theorem readonlyIn_of_held {guard : Guard} {role : Role} (hrole : heldRole? n.kind = some role) :
    t.readonlyIn guard n = true ↔
      n.all role ≠ [] ∧ ∀ m ∈ n.all role, t.readonlyIn guard m = true := by
  have hall : (∀ m ∈ n.all role, t.readonlyIn guard m = true) ↔
      t.readonlyAt guard role n.children = true := by
    simp only [mem_all, readonlyAt_iff, and_imp]
  rw [hall, ← any_role_iff, ← Bool.and_eq_true, readonlyIn]
  unfold heldRole? at hrole
  split at hrole
  case h_5 => cases hrole
  all_goals
    rename_i hkind
    cases hrole
    rw [hkind]

/-- Any other type is readonly if it is given, or if it is a name not in progress whose alias is. -/
theorem readonlyIn_of_not_held {guard : Guard} (hrole : heldRole? n.kind = none) :
    t.readonlyIn guard n = true ↔ isGiven n = true ∨
      ∃ name m, n.localTypeName? = some name ∧ guard.isActive name = false ∧
        t.alias? name = some m ∧ t.readonlyIn (guard.enter name).2 m = true := by
  have hnone (hkind : n.kind ≠ .typeReference) : n.localTypeName? = none :=
    Option.eq_none_iff_forall_ne_some.mpr fun name hname => hkind (kind_of_localTypeName? hname).1
  rw [readonlyIn]
  split
  case h_8 hkind =>
    have hgiven : isGiven n = readonlyContainers.contains n.lastSegment := by rw [isGiven, hkind]
    rw [hgiven, Bool.or_eq_true]
    refine or_congr_right ?_
    cases hname : n.localTypeName? with
    | none => simp
    | some name =>
      dsimp only
      split_ifs with hactive hdeclared
      · simp [hactive]
      · cases halias : t.alias? name <;> simp [hactive, halias]
      · constructor
        · intro hfalse
          cases hfalse
        · rintro ⟨_, m, ⟨rfl⟩, -, halias, -⟩
          exact absurd (mem_names_of_mem_hop (mem_hop_plain.mpr halias)) hdeclared
  case h_1 hkind | h_2 hkind | h_3 hkind | h_4 hkind =>
    rw [hkind] at hrole
    cases hrole
  case h_5 hkind | h_6 hkind | h_7 hkind =>
    simp [isGiven, hkind, hnone]
  case h_9 hoperator hkeyword hliteral hreference =>
    have hgiven : isGiven n = false := by
      unfold isGiven
      split <;> simp_all
    simp [hgiven, hnone hreference]

/-- The verdict finds the derivations that enter no name twice and none of those in progress. -/
theorem readonlyIn_iff (guard : Guard) (n : Node) :
    t.readonlyIn guard n = true ↔ t.ReadonlyWithout guard.active n := by
  cases hrole : heldRole? n.kind with
  | some role =>
    rw [readonlyIn_of_held hrole, ReadonlyWithout.iff_of_held hrole]
    exact and_congr_right fun _ => forall₂_congr fun m hm => readonlyIn_iff guard m
  | none =>
    rw [readonlyIn_of_not_held hrole, ReadonlyWithout.iff_of_not_held hrole]
    refine or_congr_right (exists₂_congr fun name m => and_congr_right fun hname => ?_)
    constructor
    · rintro ⟨hidle, halias, hreadonly⟩
      have hwithout := (readonlyIn_iff (guard.enter name).2 m).mp hreadonly
      rw [Guard.active_enter hidle] at hwithout
      exact ⟨Guard.isActive_eq_false_iff.mp hidle, halias, hwithout⟩
    · rintro ⟨hidle, halias, hwithout⟩
      have hidle' := Guard.isActive_eq_false_iff.mpr hidle
      rw [← Guard.active_enter hidle'] at hwithout
      exact ⟨hidle', halias, (readonlyIn_iff (guard.enter name).2 m).mpr hwithout⟩
termination_by (guard.unvisited t.names, sizeOf n)
decreasing_by
  · exact Prod.Lex.left _ _
      (Guard.unvisited_enter_lt (mem_names_of_mem_hop (mem_hop_plain.mpr halias)) hidle)
  · exact Prod.Lex.left _ _
      (Guard.unvisited_enter_lt (mem_names_of_mem_hop (mem_hop_plain.mpr halias)) hidle')
  · exact Prod.Lex.right _ (sizeOf_lt_of_mem_children (mem_all.mp hm).1)

/-! ### Derivations -/

theorem Readonly.of_isGiven (hn : isGiven n = true) : t.Readonly n := by
  unfold isGiven at hn
  split at hn
  case h_1 operator hkind => exact .operator (by rw [hkind, beq_iff_eq.mp hn])
  case h_2 keyword hkind => exact .keyword hkind hn
  case h_3 value hkind => exact .literal hkind
  case h_4 hkind => exact .container hkind (by simpa using hn)
  case h_5 => cases hn

theorem Readonly.of_held {role : Role} (hrole : heldRole? n.kind = some role)
    (hsome : n.all role ≠ []) (hall : ∀ m ∈ n.all role, t.Readonly m) : t.Readonly n := by
  unfold heldRole? at hrole
  split at hrole <;> cases hrole
  case h_1 hkind => exact .wrapped (Or.inl hkind) hsome hall
  case h_2 hkind => exact .wrapped (Or.inr hkind) hsome hall
  case h_3 hkind => exact .members (Or.inl hkind) hsome hall
  case h_4 hkind => exact .members (Or.inr hkind) hsome hall

theorem ReadonlyWithout.readonly (h : t.ReadonlyWithout avoid n) : t.Readonly n := by
  induction h with
  | given hn => exact .of_isGiven hn
  | held hrole hsome _ ih => exact .of_held hrole hsome ih
  | @hop avoid n m name hname _ halias _ ih =>
    by_cases hlast : n.lastSegment ∈ readonlyContainers
    · exact .container (kind_of_localTypeName? hname).1 hlast
    · exact .aliased hname hlast halias ih

/-- Nothing is lost by refusing names in progress: what the rules derive has a derivation that
enters no name twice on a path. -/
theorem readonly_iff_readonlyWithout : t.Readonly n ↔ t.ReadonlyWithout [] n := by
  refine ⟨fun h => ?_, ReadonlyWithout.readonly⟩
  induction h with
  | operator hn => exact .given (by simp [isGiven, hn])
  | keyword hn hkeyword => exact .given (by simp [isGiven, hn, hkeyword])
  | literal hn => exact .given (by simp [isGiven, hn])
  | container hn hlast => exact .given (by simp [isGiven, hn, hlast])
  | @wrapped n hn hsome _ ih =>
    have hrole : heldRole? n.kind = some .type := by rcases hn with hn | hn <;> rw [hn] <;> rfl
    exact .held hrole hsome ih
  | @members n hn hsome _ ih =>
    have hrole : heldRole? n.kind = some .element := by rcases hn with hn | hn <;> rw [hn] <;> rfl
    exact .held hrole hsome ih
  | @aliased n m name hname _ halias _ ih =>
    -- Where the derivation for the alias enters its name again, the part below does instead.
    have hm : t.ReadonlyWithout [name] m := by
      rcases ih.avoid_or_restart name with ih | ⟨m', halias', ih⟩
      · exact ih
      · rwa [Option.some.inj (halias.symm.trans halias')]
    exact .hop hname List.not_mem_nil halias hm

theorem readonlyIn_empty_iff : t.readonlyIn .empty n = true ↔ t.Readonly n :=
  (readonlyIn_iff .empty n).trans readonly_iff_readonlyWithout.symm

/-! ### What a derivation rests on -/

/-- A name that is no container is readonly exactly if its alias is. -/
theorem readonly_iff_of_alias (hname : n.localTypeName? = some name)
    (hother : n.lastSegment ∉ readonlyContainers) (halias : t.alias? name = some m) :
    t.Readonly n ↔ t.Readonly m := by
  obtain ⟨hkind, -⟩ := kind_of_localTypeName? hname
  have hrole : heldRole? n.kind = none := by
    rw [hkind]
    rfl
  have hgiven : isGiven n = false := by simp [isGiven, hkind, hother]
  constructor
  · intro h
    rcases (ReadonlyWithout.iff_of_not_held hrole).mp (readonly_iff_readonlyWithout.mp h) with
      hn | ⟨name', m', hname', -, halias', htype⟩
    · rw [hgiven] at hn
      cases hn
    · obtain rfl := Option.some.inj (hname.symm.trans hname')
      obtain rfl := Option.some.inj (halias.symm.trans halias')
      exact htype.readonly
  · exact .aliased hname hother halias

/-- What a readonly type rests on is readonly. -/
theorem Needs.readonly (hneeds : t.Needs n m) (h : t.Readonly n) : t.Readonly m := by
  rcases hneeds with ⟨hrole, hm⟩ | ⟨hname, hother, halias⟩
  · have hheld := (ReadonlyWithout.iff_of_held hrole).mp (readonly_iff_readonlyWithout.mp h)
    exact (hheld.2 m hm).readonly
  · exact (readonly_iff_of_alias hname hother halias).mp h

theorem Needs.isGiven_eq_false (hneeds : t.Needs n m) : isGiven n = false := by
  rcases hneeds with ⟨hrole, -⟩ | ⟨hname, hother, -⟩
  · exact isGiven_of_heldRole? hrole
  · simp [isGiven, (kind_of_localTypeName? hname).1, hother]

/-- So is what it rests on by any number of steps. -/
theorem Readonly.of_reflTransGen (h : t.Readonly n) (hrests : Relation.ReflTransGen t.Needs n m) :
    t.Readonly m := by
  induction hrests with
  | refl => exact h
  | tail _ hneeds ih => exact hneeds.readonly ih

/-- A type with a derivation does not rest on itself: a part of its derivation would rest on itself
as well, and derivations are finite. -/
theorem ReadonlyWithout.not_needs_self (h : t.ReadonlyWithout avoid n) :
    ¬ Relation.TransGen t.Needs n n := by
  have hpart {n : Node} (hself : Relation.TransGen t.Needs n n) :
      ∃ m, t.Needs n m ∧ Relation.TransGen t.Needs m m := by
    obtain ⟨m, hneeds, hback⟩ := Relation.TransGen.head'_iff.mp hself
    exact ⟨m, hneeds, .tail' hback hneeds⟩
  induction h with
  | given hn =>
    intro hself
    obtain ⟨m, hneeds, -⟩ := hpart hself
    rw [hneeds.isGiven_eq_false] at hn
    cases hn
  | held hrole _ _ ih =>
    intro hself
    obtain ⟨m, ⟨hrole', hm⟩ | ⟨hname, -, -⟩, hself⟩ := hpart hself
    · obtain rfl := Option.some.inj (hrole.symm.trans hrole')
      exact ih m hm hself
    · rw [(kind_of_localTypeName? hname).1] at hrole
      cases hrole
  | hop hname _ halias _ ih =>
    intro hself
    obtain ⟨m, ⟨hrole, -⟩ | ⟨hname', -, halias'⟩, hself⟩ := hpart hself
    · rw [(kind_of_localTypeName? hname).1] at hrole
      cases hrole
    · obtain rfl := Option.some.inj (hname.symm.trans hname')
      obtain rfl := Option.some.inj (halias.symm.trans halias')
      exact ih hself

end AliasTable

/-! ### The least solution -/

/-- **The verdict is the least solution of its rules.** For any table of aliases, a type is found
readonly exactly if the rules derive it in finitely many steps. So a name that is no container is as
readonly as its alias, and a type that rests, by any number of steps, on one that rests on itself is
not readonly. -/
theorem Shapes.isReadonly_is_least (s : Shapes) :
    (∀ n, s.isReadonly n = true ↔ s.aliases.Readonly n) ∧
    (∀ n m name, n.localTypeName? = some name → n.lastSegment ∉ readonlyContainers →
      s.aliases.alias? name = some m → s.isReadonly n = s.isReadonly m) ∧
    ∀ n m, Relation.ReflTransGen s.aliases.Needs n m → Relation.TransGen s.aliases.Needs m m →
      s.isReadonly n = false := by
  have hleast (n : Node) : s.isReadonly n = true ↔ s.aliases.Readonly n :=
    AliasTable.readonlyIn_empty_iff
  refine ⟨hleast, fun n m name hname hother halias => ?_, fun n m hrests hself => ?_⟩
  · rw [Bool.eq_iff_iff, hleast, hleast]
    exact AliasTable.readonly_iff_of_alias hname hother halias
  · rw [Bool.eq_false_iff, Ne, hleast]
    intro h
    have hm := AliasTable.readonly_iff_readonlyWithout.mp (h.of_reflTransGen hrests)
    exact hm.not_needs_self hself

end TsxLint
