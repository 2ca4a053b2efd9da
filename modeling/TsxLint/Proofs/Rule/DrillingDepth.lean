import Mathlib.Data.List.MinMax
import Mathlib.Order.Nat
import TsxLint.Proofs.Component.Roots
import TsxLint.Proofs.Data.FirstOccurrences
import TsxLint.Proofs.Rule.ComponentFindings

/-!
# How deep a prop is drilled

The rule about drilled props finds one depth for a component: its chain in the graph of who forwards
some prop to whom. It reports this depth for every prop that the component forwards. A prop has a
depth of its own, through the components that receive it, and this is the smaller one where another
prop of the same component goes further. A prop that reaches no component at all is reported with
the others.

## Main definitions

* `ComponentGraph.depthThrough`: one more than the longest chain of some components.
* `PropDrilling.componentDepth`, `PropDrilling.propDepth`: the depth of a component and of a prop.

## Main results

* `ComponentGraph.depthThrough_eq_iff`: when some receivers lead as deep as others.
* `ComponentGraph.length_eq_depthThrough`: the chain of a component of an acyclic graph is one more
  than the longest of its children.
* `PropDrilling.drilled_props_have_component_depth`: which props are reported, and with which depth.
-/

namespace TsxLint

namespace ComponentGraph

variable {g : ComponentGraph}

/-! ### Depth -/

/-- The number of components on the chain of a component, zero if it is not registered. -/
def depthOf (g : ComponentGraph) (name : String) : Nat :=
  ((g.chains.lookup name).map List.length).getD 0

/-- One more than the longest chain of those components that are registered. -/
def depthThrough (g : ComponentGraph) (receivers : List String) : Nat :=
  1 + (receivers.map g.depthOf).foldr max 0

theorem depthOf_of_mem_chains {name : String} {chain : List String}
    (h : (name, chain) ∈ g.chains) : g.depthOf name = chain.length := by
  have hname : name ∈ g.chains.map Prod.fst := List.mem_map.mpr ⟨_, h, rfl⟩
  obtain ⟨found, hfound⟩ := Option.ne_none_iff_exists'.mp (mem_keys_iff_lookup_ne_none.mp hname)
  rw [depthOf, hfound, Option.map_some, Option.getD_some,
    chain_eq_of_mem_chains (mem_of_lookup hfound) h]

theorem depthOf_eq_zero_of_not_mem {name : String} (h : name ∉ g.names) : g.depthOf name = 0 := by
  have hnone : g.chains.lookup name = none := by
    by_contra hsome
    rw [← Ne, ← mem_keys_iff_lookup_ne_none, map_fst_chains] at hsome
    exact h hsome
  rw [depthOf, hnone, Option.map_none, Option.getD_none]

/-- A registered component is on its own chain. -/
theorem depthOf_pos {name : String} (h : name ∈ g.names) : 0 < g.depthOf name := by
  obtain ⟨chain, hchain⟩ := mem_names_iff_exists_chain.mp h
  obtain ⟨-, hchains⟩ := chainsFrom_isChainFrom [] g.names (Memo.Sound.empty (g := g))
  obtain ⟨known, hwalk⟩ := hchains (name, chain) hchain
  rw [depthOf_of_mem_chains hchain]
  exact List.length_pos_of_mem (List.mem_of_head? hwalk.head)

/-! ### Depth through receivers -/

variable {receivers others : List String} {bound : Nat}

theorem depthThrough_le_iff :
    g.depthThrough receivers ≤ 1 + bound ↔ ∀ name ∈ receivers, g.depthOf name ≤ bound := by
  rw [depthThrough, Nat.add_le_add_iff_left]
  constructor
  · intro h name hname
    exact Nat.le_trans (List.le_max_of_le' 0 (List.mem_map_of_mem hname) (Nat.le_refl _)) h
  · intro h
    refine List.max_le_of_forall_le (receivers.map g.depthOf) bound fun depth hdepth => ?_
    obtain ⟨name, hname, rfl⟩ := List.mem_map.mp hdepth
    exact h name hname

/-- A depth is reached through some receivers if one of them has a chain that is long enough. -/
theorem lt_depthThrough_iff :
    1 + bound < g.depthThrough receivers ↔ ∃ name ∈ receivers, bound < g.depthOf name := by
  rw [← Nat.not_le, depthThrough_le_iff]
  push Not
  rfl

/-- More receivers lead at least as deep. -/
theorem depthThrough_mono (h : receivers ⊆ others) :
    g.depthThrough receivers ≤ g.depthThrough others := by
  have hothers : ∀ name ∈ others, g.depthOf name ≤ (others.map g.depthOf).foldr max 0 :=
    depthThrough_le_iff.mp (Nat.le_refl _)
  exact depthThrough_le_iff.mpr fun name hname => hothers name (h hname)

/-- Some of the receivers lead as deep as all of them exactly if each registered one is matched by
one of those. -/
theorem depthThrough_eq_iff (h : receivers ⊆ others) :
    g.depthThrough receivers = g.depthThrough others ↔
      ∀ other ∈ others, other ∈ g.names →
        ∃ receiver ∈ receivers, g.depthOf other ≤ g.depthOf receiver := by
  constructor
  · intro heq other hother hregistered
    have hpos := depthOf_pos hregistered
    have hlt : 1 + (g.depthOf other - 1) < g.depthThrough receivers :=
      heq ▸ lt_depthThrough_iff.mpr ⟨other, hother, by omega⟩
    obtain ⟨receiver, hreceiver, hdepth⟩ := lt_depthThrough_iff.mp hlt
    exact ⟨receiver, hreceiver, by omega⟩
  · intro hmatched
    have hreceivers : ∀ name ∈ receivers, g.depthOf name ≤ (receivers.map g.depthOf).foldr max 0 :=
      depthThrough_le_iff.mp (Nat.le_refl _)
    refine Nat.le_antisymm (depthThrough_mono h) (depthThrough_le_iff.mpr fun other hother => ?_)
    by_cases hregistered : other ∈ g.names
    · obtain ⟨receiver, hreceiver, hle⟩ := hmatched other hother hregistered
      exact Nat.le_trans hle (hreceivers receiver hreceiver)
    · rw [depthOf_eq_zero_of_not_mem hregistered]
      exact Nat.zero_le _

/-- The chain of a component of an acyclic graph is one longer than the longest of its children. -/
theorem length_eq_depthThrough (hg : g.Acyclic) {name : String} {chain : List String}
    (h : (name, chain) ∈ g.chains) : chain.length = g.depthThrough (g.children name) := by
  rcases chain_step_of_mem_chains hg h with
    ⟨rfl, hlast⟩ | ⟨before, child, after, rest, hsplit, rfl, hchild, hbefore, hafter⟩
  · have hle : g.depthThrough (g.children name) ≤ 1 + 0 :=
      depthThrough_le_iff.mpr fun child hchild =>
        Nat.le_of_eq (depthOf_eq_zero_of_not_mem (hlast child hchild))
    have hpos : 1 ≤ g.depthThrough (g.children name) := Nat.le_add_right 1 _
    exact Nat.le_antisymm hpos hle
  · have hrest := depthOf_of_mem_chains hchild
    have hbest : ∀ other ∈ g.children name, g.depthOf other ≤ rest.length := by
      intro other hother
      by_cases hregistered : other ∈ g.names
      · obtain ⟨found, hfound⟩ := mem_names_iff_exists_chain.mp hregistered
        rw [depthOf_of_mem_chains hfound]
        rw [hsplit, List.mem_append, List.mem_cons] at hother
        rcases hother with hother | rfl | hother
        · exact Nat.le_of_lt (hbefore other hother found hfound)
        · rw [chain_eq_of_mem_chains hfound hchild]
        · exact hafter other hother found hfound
      · rw [depthOf_eq_zero_of_not_mem hregistered]
        exact Nat.zero_le _
    have hmem : child ∈ g.children name := by simp [hsplit]
    have hle : g.depthThrough (g.children name) ≤ 1 + rest.length := depthThrough_le_iff.mpr hbest
    have hge : ¬ g.depthThrough (g.children name) ≤ rest.length := by
      intro hshort
      have hpos := depthOf_pos (mem_names_iff_exists_chain.mpr ⟨rest, hchild⟩)
      have hlt : 1 + (rest.length - 1) < g.depthThrough (g.children name) :=
        lt_depthThrough_iff.mpr ⟨child, hmem, by omega⟩
      omega
    rw [List.length_cons]
    omega

/-! ### Registered once each -/

/-- Registering new components one after the other adds their entries. -/
theorem entries_foldl_insert {α : Type} (edges : α → List String) {l : List (String × α)}
    (g : ComponentGraph) (hnew : (g.names ++ l.map Prod.fst).Nodup) :
    (l.foldl (fun g e => g.insert e.1 (edges e.2)) g).entries =
      g.entries ++ l.map fun e => (e.1, dedup (edges e.2)) := by
  induction l generalizing g with
  | nil => simp
  | cons e l ih =>
    have hfresh : e.1 ∉ g.names := by
      rw [List.map_cons, List.nodup_middle, List.nodup_cons, List.mem_append, not_or] at hnew
      exact hnew.1.1
    have hinsert : g.insert e.1 (edges e.2) = ⟨g.entries ++ [(e.1, dedup (edges e.2))]⟩ := by
      rw [insert, if_neg (by simpa [contains] using hfresh)]
    rw [List.foldl_cons, ih, hinsert, List.map_cons, List.append_assoc, List.singleton_append]
    rw [hinsert]
    simpa [names] using hnew

end ComponentGraph

namespace PropDrilling

variable {options : Options} {m : Model} {component : NamedFunction}

/-! ### Depth of components and of props -/

/-- The props of a component that count: those that it forwards. -/
def forwarded (options : Options) (m : Model) (component : NamedFunction) : List ForwardedProp :=
  m.forwardedProps component (!options.ignoreSpread)

/-- The components that receive some prop of a component. -/
def receivers (options : Options) (m : Model) (component : NamedFunction) : List String :=
  (forwarded options m component).flatMap ForwardedProp.components

/-- The graph of a file. -/
def fileGraph (options : Options) (m : Model) : ComponentGraph := graph (forwarders options m)

/-- The depth of a component, through whatever receives one of its props. -/
def componentDepth (options : Options) (m : Model) (component : NamedFunction) : Nat :=
  (fileGraph options m).depthThrough (receivers options m component)

/-- The depth of a prop, through the components that receive it. -/
def propDepth (options : Options) (m : Model) (prop : ForwardedProp) : Nat :=
  (fileGraph options m).depthThrough prop.components

theorem mem_forwarders {name : String} {props : List ForwardedProp} :
    (name, props) ∈ forwarders options m ↔
      ∃ component ∈ m.components, component.name = name ∧
        forwarded options m component = props ∧ props ≠ [] := by
  rw [forwarders, List.mem_filter, List.mem_map]
  constructor
  · rintro ⟨⟨component, hcomponent, heq⟩, hprops⟩
    obtain ⟨hname, hforwarded⟩ := Prod.mk.inj heq
    exact ⟨component, hcomponent, hname, hforwarded, by simpa using hprops⟩
  · rintro ⟨component, hcomponent, rfl, rfl, hprops⟩
    exact ⟨⟨component, hcomponent, rfl⟩, by simpa [forwarded] using hprops⟩

section

variable (hunique : (m.components.map NamedFunction.name).Nodup)

include hunique

theorem nodup_forwarders : ((forwarders options m).map Prod.fst).Nodup := by
  refine hunique.sublist ?_
  have hnames : m.components.map NamedFunction.name =
      (m.components.map fun component =>
        (component.name, m.forwardedProps component (!options.ignoreSpread))).map Prod.fst := by
    rw [List.map_map]
    rfl
  rw [hnames]
  exact List.filter_sublist.map Prod.fst

/-- The graph of a file has an entry for each component that forwards props. -/
theorem entries_fileGraph : (fileGraph options m).entries = (forwarders options m).map fun e =>
    (e.1, ComponentGraph.dedup (e.2.flatMap ForwardedProp.components)) := by
  have hentries := ComponentGraph.entries_foldl_insert
    (fun props : List ForwardedProp => props.flatMap ForwardedProp.components)
    ComponentGraph.empty (l := forwarders options m) (nodup_forwarders hunique)
  exact hentries

theorem names_fileGraph : (fileGraph options m).names = (forwarders options m).map Prod.fst := by
  rw [ComponentGraph.names, entries_fileGraph hunique, List.map_map]
  rfl

/-- The components that forward props are registered, with the components that receive them. -/
theorem mem_children_iff {child : String} (hcomponent : component ∈ m.components) :
    child ∈ (fileGraph options m).children component.name ↔
      child ∈ receivers options m component := by
  have hnodup : (fileGraph options m).names.Nodup := by
    rw [names_fileGraph hunique]
    exact nodup_forwarders hunique
  by_cases hprops : forwarded options m component = []
  · have habsent : component.name ∉ (fileGraph options m).names := by
      rw [names_fileGraph hunique]
      intro hmem
      obtain ⟨⟨name, props⟩, hmem, hname⟩ := List.mem_map.mp hmem
      obtain ⟨other, hother, hsame, hforwarded, hne⟩ := mem_forwarders.mp hmem
      obtain rfl := List.inj_on_of_nodup_map hunique hother hcomponent (hsame.trans hname)
      exact hne (hforwarded.symm.trans hprops)
    rw [receivers, hprops]
    constructor
    · exact fun hchild => absurd (ComponentGraph.mem_names_of_mem_children hchild) habsent
    · nofun
  · have hmem : (component.name, forwarded options m component) ∈ forwarders options m :=
      mem_forwarders.mpr ⟨component, hcomponent, rfl, rfl, hprops⟩
    have hentry : (component.name, ComponentGraph.dedup (receivers options m component)) ∈
        (fileGraph options m).entries := by
      rw [entries_fileGraph hunique]
      exact List.mem_map.mpr ⟨_, hmem, rfl⟩
    rw [ComponentGraph.children, lookup_of_nodup hnodup hentry, Option.getD_some,
      ComponentGraph.mem_dedup]

/-- The props that are found under the name of a component are those that it forwards. -/
theorem lastUnder?_forwarders_eq_some_iff {name : String} {props : List ForwardedProp} :
    lastUnder? name (forwarders options m) = some props ↔
      ∃ component ∈ m.components, component.name = name ∧
        forwarded options m component = props ∧ props ≠ [] := by
  rw [← mem_forwarders]
  refine ⟨mem_of_lastUnder?, fun hmem => ?_⟩
  refine lookup_of_nodup ?_ (List.mem_reverse.mpr hmem)
  rw [List.map_reverse, List.nodup_reverse]
  exact nodup_forwarders hunique

/-- The chain of a component is as long as its depth says. -/
theorem length_eq_componentDepth (hacyclic : (fileGraph options m).Acyclic)
    (hcomponent : component ∈ m.components) {chain : List String}
    (h : (component.name, chain) ∈ (fileGraph options m).chains) :
    chain.length = componentDepth options m component := by
  rw [ComponentGraph.length_eq_depthThrough hacyclic h, componentDepth]
  refine Nat.le_antisymm (ComponentGraph.depthThrough_mono fun child hchild => ?_)
    (ComponentGraph.depthThrough_mono fun child hchild => ?_)
  · exact (mem_children_iff hunique hcomponent).mp hchild
  · exact (mem_children_iff hunique hcomponent).mpr hchild

/-- A component that forwards props is reported exactly if it is too deep and receives no prop from
another one. -/
theorem mem_flaggedRoots_iff (hacyclic : (fileGraph options m).Acyclic) {chain : List String}
    (hcomponent : component ∈ m.components) :
    ⟨component.name, chain⟩ ∈ (fileGraph options m).flaggedRoots options.allowedDepth ↔
      (component.name, chain) ∈ (fileGraph options m).chains ∧
        options.allowedDepth < componentDepth options m component ∧
        ∀ other ∈ m.components, other.name ≠ component.name →
          component.name ∉ receivers options m other := by
  rw [ComponentGraph.mem_flaggedRoots_of_acyclic hacyclic, ComponentGraph.mem_overLimit, and_assoc]
  refine and_congr_right fun hchain => ?_
  rw [ComponentGraph.FlaggedChain.depth,
    length_eq_componentDepth hunique hacyclic hcomponent hchain]
  refine and_congr_right fun _ =>
    ⟨fun h other hother hne hreceived => ?_, fun h name hname hne hchild => ?_⟩
  · have hchild : component.name ∈ (fileGraph options m).children other.name :=
      (mem_children_iff hunique hother).mpr hreceived
    exact h other.name (ComponentGraph.mem_names_of_mem_children hchild) hne hchild
  · rw [names_fileGraph hunique] at hname
    obtain ⟨⟨name', props⟩, hmem, rfl⟩ := List.mem_map.mp hname
    obtain ⟨other, hother, rfl, -, -⟩ := mem_forwarders.mp hmem
    exact h other hother hne ((mem_children_iff hunique hother).mp hchild)

end

/-- **A drilled prop is reported with the depth of its component.** In a file whose component names
are unique and whose graph is acyclic, the props that are reported are those that a component
forwards which is too deep and receives no prop from another one. The depth in the report is that of
the component: one more than the longest chain of those that receive any of its props. The depth of
the prop itself is never greater, and it is the same exactly if each registered component that
receives some prop is matched in depth by one that receives this prop. -/
theorem drilled_props_have_component_depth (options : Options) (s : Subject)
    (hunique : (s.model.components.map NamedFunction.name).Nodup)
    (hacyclic : (fileGraph options s.model).Acyclic) :
    (∀ d, d ∈ check options s ↔ ∃ component ∈ s.model.components,
      ∃ prop ∈ forwarded options s.model component,
        options.allowedDepth < componentDepth options s.model component ∧
        (∀ other ∈ s.model.components, other.name ≠ component.name →
          component.name ∉ receivers options s.model other) ∧
        d = ⟨prop.binding.binder.span, "noPropDrilling",
          [("prop", prop.binding.label), ("component", component.name),
            ("forwardedTo", prop.targetsLabel),
            ("depth", toString (componentDepth options s.model component)),
            ("allowedDepth", toString options.allowedDepth)]⟩) ∧
    ∀ component ∈ s.model.components, ∀ prop ∈ forwarded options s.model component,
      propDepth options s.model prop ≤ componentDepth options s.model component ∧
      (propDepth options s.model prop = componentDepth options s.model component ↔
        ∀ other ∈ receivers options s.model component, other ∈ (fileGraph options s.model).names →
          ∃ receiver ∈ prop.components, (fileGraph options s.model).depthOf other ≤
            (fileGraph options s.model).depthOf receiver) := by
  refine ⟨fun d => ?_, fun component hcomponent prop hprop => ?_⟩
  · rw [check, List.mem_flatMap]
    constructor
    · rintro ⟨⟨name, chain⟩, hflagged, hd⟩
      obtain ⟨prop, hprop, rfl⟩ := List.mem_map.mp hd
      cases hlast : lastUnder? name (forwarders options s.model) with
      | none =>
        rw [hlast] at hprop
        cases hprop
      | some props =>
        rw [hlast, Option.getD_some] at hprop
        obtain ⟨component, hcomponent, rfl, rfl, -⟩ :=
          (lastUnder?_forwarders_eq_some_iff hunique).mp hlast
        obtain ⟨hchain, hdeep, hroot⟩ :=
          (mem_flaggedRoots_iff hunique hacyclic hcomponent).mp hflagged
        have hdepth : chain.length = componentDepth options s.model component :=
          length_eq_componentDepth hunique hacyclic hcomponent hchain
        refine ⟨component, hcomponent, prop, hprop, hdeep, hroot, ?_⟩
        rw [← hdepth]
        rfl
    · rintro ⟨component, hcomponent, prop, hprop, hdeep, hroot, rfl⟩
      have hlast : lastUnder? component.name (forwarders options s.model) =
          some (forwarded options s.model component) :=
        (lastUnder?_forwarders_eq_some_iff hunique).mpr
          ⟨component, hcomponent, rfl, rfl, List.ne_nil_of_mem hprop⟩
      have hname : component.name ∈ (fileGraph options s.model).names := by
        rw [names_fileGraph hunique]
        exact List.mem_map.mpr ⟨_, mem_of_lastUnder? hlast, rfl⟩
      obtain ⟨chain, hchain⟩ := ComponentGraph.mem_names_iff_exists_chain.mp hname
      refine ⟨⟨component.name, chain⟩,
        (mem_flaggedRoots_iff hunique hacyclic hcomponent).mpr ⟨hchain, hdeep, hroot⟩, ?_⟩
      rw [hlast, Option.getD_some, ← length_eq_componentDepth hunique hacyclic hcomponent hchain]
      exact List.mem_map.mpr ⟨prop, hprop, rfl⟩
  · have hsub : prop.components ⊆ receivers options s.model component :=
      fun receiver hreceiver => List.mem_flatMap.mpr ⟨prop, hprop, hreceiver⟩
    exact ⟨ComponentGraph.depthThrough_mono hsub, ComponentGraph.depthThrough_eq_iff hsub⟩

/-! ### A prop beside a drilled one -/

/-- The tree of an element such as `<B x={x} />` that starts at `start`, most tokens left out. -/
private def passingElement (tag prop : String) (field : String) (start : Nat) : Cst :=
  ⟨"jsx_self_closing_element", true, field, ⟨start, start + 11⟩, "", [
    ⟨"identifier", true, "name", ⟨start + 1, start + 2⟩, tag, []⟩,
    ⟨"jsx_attribute", true, "attribute", ⟨start + 3, start + 8⟩, "", [
      ⟨"property_identifier", true, "", ⟨start + 3, start + 4⟩, prop, []⟩,
      ⟨"jsx_expression", true, "", ⟨start + 5, start + 8⟩, "", [
        ⟨"identifier", true, "", ⟨start + 6, start + 7⟩, prop, []⟩]⟩]⟩]⟩

/-- The tree of the declaration of a component, with the span of its parameter, its props, each with
where it starts, and its body. -/
private def componentDeclaration (name : String) (span param : Span) (props : List (String × Nat))
    (body : Cst) : Cst :=
  ⟨"lexical_declaration", true, "", span, "", [
    ⟨"const", false, "kind", ⟨span.start, span.start + 5⟩, "const", []⟩,
    ⟨"variable_declarator", true, "", ⟨span.start + 6, span.stop - 1⟩, "", [
      ⟨"identifier", true, "name", ⟨span.start + 6, span.start + 7⟩, name, []⟩,
      ⟨"arrow_function", true, "value", ⟨span.start + 10, span.stop - 1⟩, "", [
        ⟨"formal_parameters", true, "parameters", ⟨param.start - 1, param.stop + 1⟩, "", [
          ⟨"required_parameter", true, "", param, "", [
            ⟨"object_pattern", true, "pattern", param, "", props.map fun (prop, start) =>
              ⟨"shorthand_property_identifier_pattern", true, "", ⟨start, start + 1⟩, prop,
                []⟩⟩]⟩]⟩,
        body]⟩]⟩]⟩

/-- The tree of
`const A = ({ x, y }) => <><B x={x} /><i y={y} /></>; const B = ({ x }) => <i x={x} />;`. -/
private def sideProp : Cst :=
  ⟨"program", true, "", ⟨0, 86⟩, "", [
    componentDeclaration "A" ⟨0, 52⟩ ⟨11, 19⟩ [("x", 13), ("y", 16)]
      ⟨"jsx_element", true, "body", ⟨24, 51⟩, "", [
        ⟨"jsx_opening_element", true, "open_tag", ⟨24, 26⟩, "<>", []⟩,
        passingElement "B" "x" "" 26,
        passingElement "i" "y" "" 37,
        ⟨"jsx_closing_element", true, "close_tag", ⟨48, 51⟩, "</>", []⟩]⟩,
    componentDeclaration "B" ⟨53, 86⟩ ⟨64, 69⟩ [("x", 66)] (passingElement "i" "x" "body" 74)]⟩

/-- The file with this tree. -/
private def sideFile : Subject :=
  .ofFile ⟨"a.tsx", "", .tsx, Model.ofCst sideProp, ⟨[0]⟩⟩ none

private theorem fileGraph_sideFile :
    fileGraph ⟨1, true⟩ sideFile.model = ⟨[("A", ["B"]), ("B", [])]⟩ := by
  decide +kernel

/-- In this file, whose component names are unique and whose graph is acyclic, each report says the
depth of the component. -/
theorem component_depth_of_side_prop :
    (sideFile.model.components.map NamedFunction.name).Nodup ∧
    (fileGraph ⟨1, true⟩ sideFile.model).Acyclic ∧
    ∀ d ∈ check ⟨1, true⟩ sideFile, ∃ component ∈ sideFile.model.components,
      d.data.lookup "component" = some component.name ∧
      d.data.lookup "depth" =
        some (toString (componentDepth ⟨1, true⟩ sideFile.model component)) := by
  have hunique : (sideFile.model.components.map NamedFunction.name).Nodup := by decide +kernel
  have hacyclic : (fileGraph ⟨1, true⟩ sideFile.model).Acyclic := by
    rw [fileGraph_sideFile]
    exact ComponentGraph.acyclic_of_rank (fun name => if name = "A" then 1 else 0) (by decide)
  refine ⟨hunique, hacyclic, fun d hd => ?_⟩
  obtain ⟨component, hcomponent, prop, -, -, -, rfl⟩ :=
    ((drilled_props_have_component_depth ⟨1, true⟩ sideFile hunique hacyclic).1 d).mp hd
  exact ⟨component, hcomponent, rfl, rfl⟩

/-- A prop that is handed to no component is reported beside one that is, and with the depth of that
one. -/
theorem prop_without_receiver_is_drilled :
    (sideFile.model.components.flatMap fun component =>
      (forwarded ⟨1, true⟩ sideFile.model component).map fun prop =>
        (component.name, prop.binding.prop, prop.components)) =
      [("A", "x", ["B"]), ("A", "y", []), ("B", "x", [])] ∧
    (check ⟨1, true⟩ sideFile).map (fun d =>
        (d.span, d.data.lookup "prop", d.data.lookup "component", d.data.lookup "depth")) =
      [(⟨13, 14⟩, some "x", some "A", some "2"), (⟨16, 17⟩, some "y", some "A", some "2")] := by
  refine ⟨by decide +kernel, ?_⟩
  have hchains : (ComponentGraph.mk [("A", ["B"]), ("B", [])]).chains =
      [("A", ["A", "B"]), ("B", ["B"])] := by
    simp [ComponentGraph.chains, ComponentGraph.chainsFrom, ComponentGraph.names,
      ComponentGraph.chainFrom, ComponentGraph.bestOf, ComponentGraph.children,
      ComponentGraph.contains, Guard.empty, Guard.isActive, Guard.enter, List.lookup_cons]
  have hroots : (ComponentGraph.mk [("A", ["B"]), ("B", [])]).flaggedRoots 1 =
      [⟨"A", ["A", "B"]⟩] := by
    rw [ComponentGraph.flaggedRoots, ComponentGraph.overLimit, hchains]
    decide +kernel
  have hgraph : graph (forwarders ⟨1, true⟩ sideFile.model) =
    ⟨[("A", ["B"]), ("B", [])]⟩ := fileGraph_sideFile
  rw [check, hgraph, hroots]
  decide +kernel

end PropDrilling

end TsxLint
