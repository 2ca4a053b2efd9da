import Mathlib.Data.List.Basic
import Mathlib.Logic.Relation
import TsxLint.Type.Shape

/-!
# What a type leads to

A walk through types refuses the names that it is working on. It is cut short in this way on every
alias that leads back to itself, and still it meets each type that the annotation leads to: a path
that comes back to a name can be cut where it entered the name first.

`AliasTable.Leads` is the walk as a relation, with the names that it refuses. The argument has two
halves: `meets` finds what `Leads` allows, and `Leads` without refused names is reachability by
single steps.

## Main definitions

* `AliasTable.Steps`: the single steps of a walk.
* `AliasTable.Leads`: paths on which no name is entered twice and some names are not entered at all.
* `AliasTable.LeadsTo`: the steps through wrappers, members and aliases.

## Main results

* `AliasTable.meets_iff_leads`: a walk meets what it can lead to.
* `AliasTable.leads_of_steps`: nothing is lost by refusing names in progress.
* `Shapes.anyShape_is_reachability`: the verdict on an annotation, and what follows for unions and
  aliases.
-/

namespace TsxLint

/-- Whether a type is a wrapper, a union or an intersection. -/
def Kind.isTypeWrapper : Kind → Bool
  | parenthesizedType | optionalType | unionType | intersectionType => true
  | _ => false

namespace AliasTable

variable {t : AliasTable} {w : Walk}

/-! ### Paths -/

/-- One step of a walk: to a part of a type at which it does not stop, or from a name to what the
name leads to. -/
inductive Steps (t : AliasTable) (w : Walk) : Node → Node → Prop
  | part {n m : Node} {roles : List Role} (hparts : w.parts? n.kind = some roles)
      (hm : m ∈ n.children) (hrole : m.role ∈ roles) : Steps t w n m
  | hop {n m : Node} {name : String} (hstop : w.parts? n.kind = none)
      (hname : n.localTypeName? = some name) (hm : m ∈ t.hop w name) : Steps t w n m

/-- A walk can lead from a type to another at which it stops, entering no name twice and none of the
names to avoid. -/
inductive Leads (t : AliasTable) (w : Walk) : List String → Node → Node → Prop
  | stop {avoid : List String} {n : Node} (hstop : w.parts? n.kind = none) : Leads t w avoid n n
  | part {avoid : List String} {n m last : Node} {roles : List Role}
      (hparts : w.parts? n.kind = some roles) (hm : m ∈ n.children) (hrole : m.role ∈ roles)
      (hlast : Leads t w avoid m last) : Leads t w avoid n last
  | hop {avoid : List String} {n m last : Node} {name : String} (hstop : w.parts? n.kind = none)
      (hname : n.localTypeName? = some name) (hidle : name ∉ avoid) (hm : m ∈ t.hop w name)
      (hlast : Leads t w (name :: avoid) m last) : Leads t w avoid n last

namespace Leads

variable {avoid : List String} {n last : Node}

/-- Where a walk goes on to the parts of a type. -/
theorem iff_of_parts {roles : List Role} (hparts : w.parts? n.kind = some roles) :
    t.Leads w avoid n last ↔ ∃ m ∈ n.children, m.role ∈ roles ∧ t.Leads w avoid m last := by
  constructor
  · rintro (hstop | ⟨hparts', hm, hrole, hlast⟩ | ⟨hstop, -, -, -, -⟩)
    · rw [hparts] at hstop
      cases hstop
    · obtain rfl := Option.some.inj (hparts.symm.trans hparts')
      exact ⟨_, hm, hrole, hlast⟩
    · rw [hparts] at hstop
      cases hstop
  · rintro ⟨m, hm, hrole, hlast⟩
    exact .part hparts hm hrole hlast

/-- Where a walk stops at a type, it can still enter the name that the type is. -/
theorem iff_of_stop (hstop : w.parts? n.kind = none) :
    t.Leads w avoid n last ↔ last = n ∨ ∃ name, n.localTypeName? = some name ∧ name ∉ avoid ∧
      ∃ m ∈ t.hop w name, t.Leads w (name :: avoid) m last := by
  constructor
  · rintro (- | ⟨hparts, -, -, -⟩ | ⟨-, hname, hidle, hm, hlast⟩)
    · exact Or.inl rfl
    · rw [hstop] at hparts
      cases hparts
    · exact Or.inr ⟨_, hname, hidle, _, hm, hlast⟩
  · rintro (rfl | ⟨name, hname, hidle, m, hm, hlast⟩)
    · exact .stop hstop
    · exact .hop hstop hname hidle hm hlast

/-- A walk with fewer names to avoid leads at least as far. -/
theorem mono (h : t.Leads w avoid n last) {avoid' : List String}
    (hsub : ∀ name ∈ avoid', name ∈ avoid) : t.Leads w avoid' n last := by
  induction h generalizing avoid' with
  | stop hstop => exact .stop hstop
  | part hparts hm hrole _ ih => exact .part hparts hm hrole (ih hsub)
  | hop hstop hname hidle hm _ ih =>
    refine .hop hstop hname (fun hname' => hidle (hsub _ hname')) hm (ih fun name hname' => ?_)
    rcases List.mem_cons.mp hname' with rfl | hname'
    · exact List.mem_cons_self
    · exact List.mem_cons_of_mem _ (hsub name hname')

/-- A path avoids a further name, or it can be cut to start where it left that name last. -/
theorem avoid_or_restart (h : t.Leads w avoid n last) (name : String) :
    t.Leads w (name :: avoid) n last ∨ ∃ m ∈ t.hop w name, t.Leads w (name :: avoid) m last := by
  induction h with
  | stop hstop => exact Or.inl (.stop hstop)
  | part hparts hm hrole _ ih =>
    rcases ih with ih | ih
    · exact Or.inl (.part hparts hm hrole ih)
    · exact Or.inr ih
  | @hop avoid n m last entered hstop hname hidle hm hlast ih =>
    by_cases heq : entered = name
    · subst heq
      exact Or.inr ⟨m, hm, hlast⟩
    · rcases ih with ih | ⟨m', hm', ih⟩
      · refine Or.inl (.hop hstop hname (by simp [heq, hidle]) hm (ih.mono ?_))
        simp +contextual
      · exact Or.inr ⟨m', hm', ih.mono (by simp +contextual)⟩

/-- A path is made of single steps and ends where the walk stops. -/
theorem reflTransGen (h : t.Leads w avoid n last) :
    Relation.ReflTransGen (t.Steps w) n last ∧ w.parts? last.kind = none := by
  induction h with
  | stop hstop => exact ⟨.refl, hstop⟩
  | part hparts hm hrole _ ih => exact ⟨.head (.part hparts hm hrole) ih.1, ih.2⟩
  | hop hstop hname _ hm _ ih => exact ⟨.head (.hop hstop hname hm) ih.1, ih.2⟩

end Leads

/-- Nothing is lost by refusing names in progress: where single steps lead, a path leads that enters
no name twice. -/
theorem leads_of_steps {n last : Node} (h : Relation.ReflTransGen (t.Steps w) n last)
    (hlast : w.parts? last.kind = none) : t.Leads w [] n last := by
  induction h using Relation.ReflTransGen.head_induction_on with
  | refl => exact .stop hlast
  | head hstep _ ih =>
    rcases hstep with ⟨hparts, hm, hrole⟩ | ⟨hstop, hname, hm⟩
    · exact .part hparts hm hrole ih
    · rcases ih.avoid_or_restart _ with ih | ⟨m', hm', ih⟩
      · exact .hop hstop hname List.not_mem_nil hm ih
      · exact .hop hstop hname List.not_mem_nil hm' ih

/-! ### Walks -/

theorem sizeOf_lt_of_mem_children {n m : Node} (hm : m ∈ n.children) : sizeOf m < sizeOf n := by
  obtain ⟨role, id, kind, span, children⟩ := n
  have hlt : sizeOf m < sizeOf children := List.sizeOf_lt_of_mem hm
  simp only [Node.mk.sizeOf_spec]
  omega

/-- A name that leads somewhere is declared. -/
theorem mem_names_of_mem_hop {name : String} {m : Node} (hm : m ∈ t.hop w name) :
    name ∈ t.names := by
  rw [names, List.mem_append]
  unfold hop at hm
  split at hm
  · rename_i type htype
    obtain ⟨before, after, heq, -⟩ := List.lookup_eq_some_iff.mp htype
    exact Or.inl (by simp [heq])
  · split_ifs at hm
    · obtain ⟨declaration, hdeclaration, -⟩ := List.mem_flatMap.mp hm
      obtain ⟨entry, hentry, -⟩ := List.mem_map.mp hdeclaration
      obtain ⟨hmem, hname⟩ := List.mem_filter.mp hentry
      exact Or.inr (List.mem_map.mpr ⟨entry, hmem, by simpa using hname⟩)
    · cases hm

/-- What walks as `Leads` does finds what `Leads` allows: where the walk does not stop at a type, it
looks at the parts, and otherwise at the type itself and, with its name in progress, at what the
name leads to. -/
theorem Leads.iff_of_walks (finds : Guard → Node → Prop) {leaf : Node → Prop}
    (hparts : ∀ guard n roles, w.parts? n.kind = some roles →
      (finds guard n ↔ ∃ m ∈ n.children, m.role ∈ roles ∧ finds guard m))
    (hstop : ∀ guard n, w.parts? n.kind = none →
      (finds guard n ↔ leaf n ∨ ∃ name, n.localTypeName? = some name ∧
        guard.isActive name = false ∧ ∃ m ∈ t.hop w name, finds (guard.enter name).2 m))
    (guard : Guard) (n : Node) :
    finds guard n ↔ ∃ last, t.Leads w guard.active n last ∧ leaf last := by
  cases hn : w.parts? n.kind with
  | some roles =>
    rw [hparts guard n roles hn]
    simp only [Leads.iff_of_parts hn]
    constructor
    · rintro ⟨m, hm, hrole, hfinds⟩
      obtain ⟨last, hlast, hleaf⟩ := (Leads.iff_of_walks finds hparts hstop guard m).mp hfinds
      exact ⟨last, ⟨m, hm, hrole, hlast⟩, hleaf⟩
    · rintro ⟨last, ⟨m, hm, hrole, hlast⟩, hleaf⟩
      exact ⟨m, hm, hrole, (Leads.iff_of_walks finds hparts hstop guard m).mpr ⟨last, hlast, hleaf⟩⟩
  | none =>
    rw [hstop guard n hn]
    simp only [Leads.iff_of_stop hn]
    constructor
    · rintro (hleaf | ⟨name, hname, hidle, m, hm, hfinds⟩)
      · exact ⟨n, Or.inl rfl, hleaf⟩
      · obtain ⟨last, hlast, hleaf⟩ :=
          (Leads.iff_of_walks finds hparts hstop (guard.enter name).2 m).mp hfinds
        rw [Guard.active_enter hidle] at hlast
        have hinactive := Guard.isActive_eq_false_iff.mp hidle
        exact ⟨last, Or.inr ⟨name, hname, hinactive, m, hm, hlast⟩, hleaf⟩
    · rintro ⟨last, rfl | ⟨name, hname, hidle, m, hm, hlast⟩, hleaf⟩
      · exact Or.inl hleaf
      · have hidle' := Guard.isActive_eq_false_iff.mpr hidle
        rw [← Guard.active_enter hidle'] at hlast
        exact Or.inr ⟨name, hname, hidle', m, hm,
          (Leads.iff_of_walks finds hparts hstop (guard.enter name).2 m).mpr ⟨last, hlast, hleaf⟩⟩
termination_by (guard.unvisited t.names, sizeOf n)
decreasing_by
  · exact Prod.Lex.left _ _ (Guard.unvisited_enter_lt (mem_names_of_mem_hop hm) hidle)
  · exact Prod.Lex.left _ _ (Guard.unvisited_enter_lt (mem_names_of_mem_hop hm) hidle')
  · exact Prod.Lex.right _ (sizeOf_lt_of_mem_children hm)
  · exact Prod.Lex.right _ (sizeOf_lt_of_mem_children hm)

section

variable {leaf : Node → Bool}

theorem meetsAt_iff (guard : Guard) (roles : List Role) (ns : List Node) :
    (meetsAt t w leaf guard roles ns).1.1 = true ↔
      ∃ n ∈ ns, n.role ∈ roles ∧ (meets t w leaf guard n).1.1 = true := by
  induction ns with
  | nil => simp [meetsAt]
  | cons n ns ih =>
    rw [meetsAt]
    simp only [List.exists_mem_cons_iff]
    split_ifs with hrole
    · have hrole' : n.role ∈ roles := by simpa using hrole
      split
      · rename_i after hsame hmeets
        simp [hrole', hmeets]
      · rename_i after hsame hmeets
        obtain rfl : after = guard := hsame
        simp [hmeets, ih]
    · have hrole' : n.role ∉ roles := by simpa using hrole
      simp [hrole', ih]

theorem meetsAny_iff (guard : Guard) (ns : List Node) :
    (meetsAny t w leaf guard ns).1.1 = true ↔ ∃ n ∈ ns, (meets t w leaf guard n).1.1 = true := by
  induction ns with
  | nil => simp [meetsAny]
  | cons n ns ih =>
    rw [meetsAny]
    simp only [List.exists_mem_cons_iff]
    split
    · rename_i after hsame hmeets
      simp [hmeets]
    · rename_i after hsame hmeets
      obtain rfl : after = guard := hsame
      simp [hmeets, ih]

theorem meets_of_parts {guard : Guard} {n : Node} {roles : List Role}
    (hparts : w.parts? n.kind = some roles) :
    (meets t w leaf guard n).1.1 = true ↔
      ∃ m ∈ n.children, m.role ∈ roles ∧ (meets t w leaf guard m).1.1 = true := by
  rw [meets]
  split
  · rename_i roles' hparts'
    obtain rfl := Option.some.inj (hparts.symm.trans hparts')
    exact meetsAt_iff guard _ _
  · rename_i hstop
    rw [hparts] at hstop
    cases hstop

theorem meets_of_stop {guard : Guard} {n : Node} (hstop : w.parts? n.kind = none) :
    (meets t w leaf guard n).1.1 = true ↔ leaf n = true ∨ ∃ name, n.localTypeName? = some name ∧
      guard.isActive name = false ∧
      ∃ m ∈ t.hop w name, (meets t w leaf (guard.enter name).2 m).1.1 = true := by
  rw [meets]
  split
  · rename_i hparts
    rw [hstop] at hparts
    cases hparts
  · split_ifs with hleaf
    · simp [hleaf]
    · split
      · rename_i hname
        simp [hleaf, hname]
      · rename_i name hname
        simp only [hleaf, hname, Option.some.injEq, exists_eq_left', Bool.false_eq_true, false_or]
        split_ifs with hactive hdeclared
        · simp [hactive]
        · simp [hactive, meetsAny_iff]
        · constructor
          · intro hfalse
            cases hfalse
          · rintro ⟨-, m, hm, -⟩
            exact absurd (mem_names_of_mem_hop hm) hdeclared

/-- A walk meets a type of a shape exactly if it can lead to one. -/
theorem meets_iff_leads (guard : Guard) (n : Node) :
    (meets t w leaf guard n).1.1 = true ↔
      ∃ last, t.Leads w guard.active n last ∧ leaf last = true :=
  Leads.iff_of_walks (fun guard n => (meets t w leaf guard n).1.1 = true)
    (fun _ _ _ => meets_of_parts) (fun _ _ => meets_of_stop) guard n

end

/-! ### The plain walk -/

/-- One step from a type to what it is made of: to the inside of a wrapper, to a member of a union
or an intersection, or from a name without qualifiers to the right-hand side of its alias. -/
inductive LeadsTo (t : AliasTable) : Node → Node → Prop
  | wrapped {n m : Node} (hn : n.kind = .parenthesizedType ∨ n.kind = .optionalType)
      (hm : m ∈ n.all .type) : LeadsTo t n m
  | member {n m : Node} (hn : n.kind = .unionType ∨ n.kind = .intersectionType)
      (hm : m ∈ n.all .element) : LeadsTo t n m
  | aliased {n m : Node} {name : String} (hname : n.localTypeName? = some name)
      (hm : t.alias? name = some m) : LeadsTo t n m

/-- The step from a name, itself not of a shape, to the right-hand side of its alias. -/
def HopsTo (t : AliasTable) (leaf : Node → Bool) (n m : Node) : Prop :=
  leaf n = false ∧ ∃ name, n.localTypeName? = some name ∧ t.alias? name = some m

theorem mem_all {n m : Node} {role : Role} : m ∈ n.all role ↔ m ∈ n.children ∧ m.role = role := by
  simp [Node.all]

theorem mem_hop_plain {name : String} {m : Node} :
    m ∈ t.hop .plain name ↔ t.alias? name = some m := by
  unfold hop
  split
  · rename_i type htype
    simp [htype, eq_comm]
  · rename_i htype
    simp [htype, Walk.plain]

theorem kind_of_localTypeName? {n : Node} {name : String} (h : n.localTypeName? = some name) :
    n.kind = .typeReference ∧ n.lastSegment = name := by
  unfold Node.localTypeName? at h
  split at h
  · rename_i hkind
    split_ifs at h
    exact ⟨hkind, Option.some.inj h⟩
  · cases h

theorem localTypeName?_eq_none_of_kind {n : Node} (hkind : n.kind = .typeLiteral) :
    n.localTypeName? = none := by
  rw [Node.localTypeName?, hkind]

theorem parts?_eq_none_of_localTypeName? {n : Node} {name : String}
    (h : n.localTypeName? = some name) : w.parts? n.kind = none := by
  rw [(kind_of_localTypeName? h).1]
  rfl

theorem steps_plain_iff {n m : Node} : t.Steps .plain n m ↔ t.LeadsTo n m := by
  constructor
  · rintro (⟨hparts, hm, hrole⟩ | ⟨-, hname, hm⟩)
    · unfold Walk.parts? at hparts
      split at hparts
      · rename_i hk
        cases hparts
        exact .wrapped (Or.inl hk) (mem_all.mpr ⟨hm, by simpa using hrole⟩)
      · rename_i hk
        cases hparts
        exact .wrapped (Or.inr hk) (mem_all.mpr ⟨hm, by simpa using hrole⟩)
      · cases hparts
      · rename_i hk
        cases hparts
        exact .member (Or.inl hk) (mem_all.mpr ⟨hm, by simpa using hrole⟩)
      · rename_i hk
        cases hparts
        exact .member (Or.inr hk) (mem_all.mpr ⟨hm, by simpa using hrole⟩)
      · cases hparts
    · exact .aliased hname (mem_hop_plain.mp hm)
  · rintro (⟨hn, hm⟩ | ⟨hn, hm⟩ | ⟨hname, hm⟩)
    · obtain ⟨hm, hrole⟩ := mem_all.mp hm
      have hparts : Walk.plain.parts? n.kind = some [.type] := by
        rcases hn with hn | hn <;> rw [hn] <;> rfl
      exact .part hparts hm (by simp [hrole])
    · obtain ⟨hm, hrole⟩ := mem_all.mp hm
      have hparts : Walk.plain.parts? n.kind = some [.element] := by
        rcases hn with hn | hn <;> rw [hn] <;> rfl
      exact .part hparts hm (by simp [hrole])
    · exact .hop (parts?_eq_none_of_localTypeName? hname) hname (mem_hop_plain.mpr hm)

theorem parts?_plain_eq_none_iff {kind : Kind} :
    Walk.plain.parts? kind = none ↔ kind.isTypeWrapper = false := by
  cases kind <;> simp [Walk.parts?, Walk.plain, Kind.isTypeWrapper]

/-- A plain walk meets exactly the shapes that can be reached by single steps. -/
theorem meets_plain_iff {leaf : Node → Bool} {n : Node} :
    (meets t .plain leaf .empty n).1.1 = true ↔
      ∃ m, Relation.ReflTransGen t.LeadsTo n m ∧ m.kind.isTypeWrapper = false ∧ leaf m = true := by
  have hsteps : t.Steps .plain = t.LeadsTo := by
    funext n m
    exact propext steps_plain_iff
  rw [meets_iff_leads, ← hsteps]
  constructor
  · rintro ⟨last, hlast, hleaf⟩
    obtain ⟨hpath, hstop⟩ := hlast.reflTransGen
    exact ⟨last, hpath, parts?_plain_eq_none_iff.mp hstop, hleaf⟩
  · rintro ⟨last, hpath, hstop, hleaf⟩
    exact ⟨last, leads_of_steps hpath (parts?_plain_eq_none_iff.mpr hstop), hleaf⟩

/-- A name that is not of a shape itself has the shapes of its alias. -/
theorem meets_plain_of_hopsTo {leaf : Node → Bool} {n m : Node} (h : t.HopsTo leaf n m) :
    (meets t .plain leaf .empty n).1.1 = (meets t .plain leaf .empty m).1.1 := by
  obtain ⟨hleaf, name, hname, halias⟩ := h
  have honly {x : Node} (hx : t.LeadsTo n x) : x = m := by
    rcases steps_plain_iff.mpr hx with ⟨hparts, -, -⟩ | ⟨-, hname', hx⟩
    · rw [parts?_eq_none_of_localTypeName? hname] at hparts
      cases hparts
    · obtain rfl := Option.some.inj (hname.symm.trans hname')
      exact Option.some.inj ((mem_hop_plain.mp hx).symm.trans halias)
  rw [Bool.eq_iff_iff, meets_plain_iff, meets_plain_iff]
  constructor
  · rintro ⟨last, hpath, hstop, hlast⟩
    rcases Relation.ReflTransGen.cases_head hpath with rfl | ⟨x, hx, hpath⟩
    · rw [hleaf] at hlast
      cases hlast
    · rw [honly hx] at hpath
      exact ⟨last, hpath, hstop, hlast⟩
  · rintro ⟨last, hpath, hstop, hlast⟩
    exact ⟨last, .head (.aliased hname halias) hpath, hstop, hlast⟩

end AliasTable

/-! ### Verdicts -/

namespace Shapes

/-- The verdicts that hold of a union when they hold of a member, each with the shape that it looks
for. -/
def memberVerdicts : List ((Shapes → Node → Bool) × (Shapes → Node → Bool)) :=
  [(isArray, fun _ => isArrayLeaf), (isBoolean, fun _ => isBooleanLeaf),
    (isFunction, fun _ => isFunctionLeaf), (isObject, isObjectLeaf),
    (isComponentConstructor, fun _ => isComponentLeaf)]

variable {t : AliasTable}

/-- Without a type service a verdict is about the annotation as written. -/
theorem verdict_eq {p : (Shapes → Node → Bool) × (Shapes → Node → Bool)} (hp : p ∈ memberVerdicts)
    (n : Node) : p.1 ⟨t, none⟩ n = (AliasTable.meets t .plain (p.2 ⟨t, none⟩) .empty n).1.1 := by
  simp only [memberVerdicts, List.mem_cons, List.not_mem_nil, or_false] at hp
  rcases hp with rfl | rfl | rfl | rfl | rfl <;> rfl

/-- **Refusing names in progress computes reachability.** Without a type service, and for any table
of aliases, the search for a shape hands its guard back as it was, and it succeeds exactly if the
annotation leads to a type of that shape. So a union has a shape exactly if one of its members has
it, and names have the shapes of their aliases, over any number of hops. -/
theorem anyShape_is_reachability (t : AliasTable) :
    (∀ leaf guard n, ((Shapes.mk t none).anyShape leaf guard n).2 = guard) ∧
    (∀ leaf n, ((Shapes.mk t none).anyShape leaf .empty n).1 = true ↔
      ∃ m, Relation.ReflTransGen t.LeadsTo n m ∧ m.kind.isTypeWrapper = false ∧ leaf m = true) ∧
    ∀ p ∈ memberVerdicts,
      (∀ n, n.kind = .unionType →
        (p.1 ⟨t, none⟩ n = true ↔ ∃ m ∈ n.all .element, p.1 ⟨t, none⟩ m = true)) ∧
      (∀ n m, Relation.ReflTransGen (t.HopsTo (p.2 ⟨t, none⟩)) n m →
        p.1 ⟨t, none⟩ n = p.1 ⟨t, none⟩ m) := by
  refine ⟨fun leaf guard n => (AliasTable.meets t .plain leaf guard n).2,
    fun leaf n => AliasTable.meets_plain_iff, fun p hp => ⟨fun n hn => ?_, fun n m hpath => ?_⟩⟩
  · have hparts : AliasTable.Walk.plain.parts? n.kind = some [.element] := by
      rw [hn]
      rfl
    simp only [verdict_eq hp, AliasTable.meets_of_parts hparts, AliasTable.mem_all,
      List.mem_singleton, and_assoc]
  · induction hpath with
    | refl => rfl
    | tail _ hhop ih => rw [ih, verdict_eq hp, verdict_eq hp, AliasTable.meets_plain_of_hopsTo hhop]

end Shapes

end TsxLint
