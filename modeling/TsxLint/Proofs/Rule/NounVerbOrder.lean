import TsxLint.Proofs.Rule.HandlerNames

/-!
# Nouns before verbs

A handler name whose verb stands before its noun is reported, with the two exchanged as the better
name. The better name may be reported as well: what was moved forward may be a verb itself, and then
the name reads as verb and noun in either order. So the suggestion settles the finding unless the
new name leads with a verb again; a name that comes to read as a known noun and a verb always
settles it.

## Main definitions

* `NounVerb.Words.Leads`, `NounVerb.Words.ReadsNounVerb`: the two readings of a name.
* `NounVerb.Words.Misordered`: the names that are reported.
* `NounVerb.Words.decides`: the words that end the search for a verb.
* `Check.AlwaysReports`: a name that a check always reports.

## Main results

* `NounVerb.moveLeading?_of_isLongest`: the longest verb decides, whichever are added.
* `NounVerb.isSome_suggestion?_iff`: suggestions are made for misordered names.
* `NounVerb.suggestion_settles_unless_misordered`: when a suggestion settles its finding.
* `NounVerb.openChange_goes_round`: two names that are suggested for each other.
-/

namespace TsxLint

/-- A name that a check always reports. -/
def Check.AlwaysReports (check : Check) (name : String) : Prop :=
  ∀ file, ∀ a ∈ file.attributes, a.tagName = name →
    ∃ d ∈ check file, d.span = a.nameSpan ∧ d.data.lookup "prop" = some name

namespace NounVerb

/-! ### Two readings -/

namespace Words

/-- The words as options leave them: none is empty, and longer verbs come first. -/
structure InOrder (words : Words) : Prop where
  verb_ne : ∀ verb ∈ words.verbs, verb ≠ ""
  longestFirst : words.verbs.Pairwise fun a b => b.utf8ByteSize ≤ a.utf8ByteSize

/-- What follows `on` leads with a verb that is not a noun, and a subject goes on after it like a
new word. -/
structure Leads (words : Words) (rest verb leading subject : String) : Prop where
  rest_eq : rest = leading ++ subject
  mem : verb ∈ words.verbs
  not_noun : verb ∉ words.nouns
  starts : Text.startsWith (Text.lower rest) verb = true
  size : leading.utf8ByteSize = verb.utf8ByteSize
  goesOn : Naming.firstIsUpperOrCaseless subject = true

/-- What follows `on` is a known noun and a verb, and starts like a word. -/
def ReadsNounVerb (words : Words) (rest : String) : Prop :=
  ∃ noun ∈ words.nouns, ∃ verb ∈ words.verbs, Text.lower rest = noun ++ verb ∧
    ∃ first last, rest = first ++ last ∧ first.utf8ByteSize = noun.utf8ByteSize ∧
      Naming.firstIsUpperOrCaseless first = true

/-- What follows `on` starts with a word that is also a noun. -/
def StartsWithNoun (words : Words) (rest word : String) : Prop :=
  Text.startsWith (Text.lower rest) word = true ∧ word ∈ words.nouns

/-- What follows `on` does not read as a noun and a verb but leads with a verb, and no longer verb
that it starts with is also a noun. -/
def Misordered (words : Words) (rest : String) : Prop :=
  ¬ words.ReadsNounVerb rest ∧ ∃ verb leading subject, words.Leads rest verb leading subject ∧
    ∀ longer ∈ words.verbs, verb.utf8ByteSize < longer.utf8ByteSize →
      ¬ words.StartsWithNoun rest longer

theorem inOrder_of_ofData? {options : Data} {words : Words} (h : ofData? options = some words) :
    words.InOrder := by
  simp only [ofData?, Option.bind_eq_bind, Option.bind_eq_some_iff, Option.pure_def,
    Option.some.injEq] at h
  obtain ⟨table, -, verbs, -, nouns, -, rfl⟩ := h
  exact ⟨fun verb hverb => (Naming.mem_mergeVocabulary_iff.mp hverb).1,
    Naming.pairwise_mergeVocabulary ..⟩

end Words

variable {words : Words} {rest prop suggestion verb leading subject : String}

theorem ne_empty_of_firstIsUpperOrCaseless {value : String}
    (h : Naming.firstIsUpperOrCaseless value = true) : value ≠ "" := by
  rintro rfl
  cases h

theorem isNounVerb_iff : isNounVerb words rest = true ↔ words.ReadsNounVerb rest := by
  simp only [isNounVerb, List.any_eq_true, Option.any_eq_true, Bool.and_eq_true, bne_iff_ne,
    Text.stripEnd?_eq_some_iff, List.contains_iff_mem, Prod.exists, Text.splitBytes?_eq_some_iff]
  constructor
  · rintro ⟨verb, hverb, noun, hlower, ⟨-, first, last, ⟨hrest, hsize⟩, hfirst⟩, hnoun⟩
    exact ⟨noun, hnoun, verb, hverb, hlower, first, last, hrest, hsize, hfirst⟩
  · rintro ⟨noun, hnoun, verb, hverb, hlower, first, last, hrest, hsize, hfirst⟩
    refine ⟨verb, hverb, noun, hlower, ⟨?_, first, last, ⟨hrest, hsize⟩, hfirst⟩, hnoun⟩
    rintro rfl
    exact ne_empty_of_firstIsUpperOrCaseless hfirst (String.utf8ByteSize_eq_zero_iff.mp hsize)

/-! ### The search for a leading verb -/

theorem exists_leads_iff : (∃ leading subject, words.Leads rest verb leading subject) ↔
    verb ∈ words.verbs ∧ Text.startsWith (Text.lower rest) verb = true ∧ verb ∉ words.nouns ∧
      (moveVerb? rest verb).isSome = true := by
  simp only [Option.isSome_iff_exists, moveVerb?_eq_some_iff]
  constructor
  · rintro ⟨leading, subject, h⟩
    exact ⟨h.mem, h.starts, h.not_noun, _, leading, subject, h.rest_eq, h.size,
      ne_empty_of_firstIsUpperOrCaseless h.goesOn, h.goesOn, rfl⟩
  · rintro ⟨hmem, hstarts, hnoun, _, leading, subject, hrest, hsize, -, hgoesOn, -⟩
    exact ⟨leading, subject, hrest, hmem, hnoun, hstarts, hsize, hgoesOn⟩

section

variable {verbs : List String}

theorem moveLeading?_eq_some (h : moveLeading? words rest verbs = some suggestion) :
    ∃ verb ∈ verbs, Text.startsWith (Text.lower rest) verb = true ∧ verb ∉ words.nouns ∧
      moveVerb? rest verb = some suggestion := by
  induction verbs with
  | nil => cases h
  | cons verb verbs ih =>
    rw [moveLeading?] at h
    split_ifs at h with hstart hnoun
    · rw [List.contains_iff_mem] at hnoun
      rcases Option.or_eq_some_iff.mp h with hmoved | ⟨-, h⟩
      · exact ⟨verb, List.mem_cons_self, hstart, hnoun, hmoved⟩
      · obtain ⟨other, hmem, hother⟩ := ih h
        exact ⟨other, List.mem_cons_of_mem _ hmem, hother⟩
    · obtain ⟨other, hmem, hother⟩ := ih h
      exact ⟨other, List.mem_cons_of_mem _ hmem, hother⟩

/-- The search ends with a verb that can be moved, or with one that is also a noun. -/
theorem isSome_moveLeading?_cons : (moveLeading? words rest (verb :: verbs)).isSome = true ↔
    (Text.startsWith (Text.lower rest) verb = true ∧ verb ∉ words.nouns ∧
      (moveVerb? rest verb).isSome = true) ∨
    ¬ words.StartsWithNoun rest verb ∧ (moveLeading? words rest verbs).isSome = true := by
  rw [moveLeading?, Words.StartsWithNoun]
  by_cases hstart : Text.startsWith (Text.lower rest) verb = true
  · by_cases hnoun : verb ∈ words.nouns
    · simp [hstart, hnoun]
    · simp [hstart, hnoun]
  · simp [hstart]

/-- As longer verbs come first, the search finds a verb unless a longer one is also a noun. -/
theorem isSome_moveLeading?_iff
    (hsorted : verbs.Pairwise fun a b => b.utf8ByteSize ≤ a.utf8ByteSize) :
    (moveLeading? words rest verbs).isSome = true ↔ ∃ verb ∈ verbs,
      (Text.startsWith (Text.lower rest) verb = true ∧ verb ∉ words.nouns ∧
        (moveVerb? rest verb).isSome = true) ∧
      ∀ longer ∈ verbs, verb.utf8ByteSize < longer.utf8ByteSize →
        ¬ words.StartsWithNoun rest longer := by
  induction verbs with
  | nil => simp [moveLeading?]
  | cons first verbs ih =>
    obtain ⟨hlongest, hsorted⟩ := List.pairwise_cons.mp hsorted
    rw [isSome_moveLeading?_cons, ih hsorted]
    constructor
    · rintro (hmoves | ⟨hfirst, verb, hverb, hmoves, hlonger⟩)
      · refine ⟨first, List.mem_cons_self, hmoves, List.forall_mem_cons.mpr ⟨fun hlt => ?_, ?_⟩⟩
        · exact absurd hlt (lt_irrefl _)
        · exact fun longer hmem hlt => absurd (hlongest longer hmem) (by omega)
      · exact ⟨verb, List.mem_cons_of_mem _ hverb, hmoves,
          List.forall_mem_cons.mpr ⟨fun _ => hfirst, hlonger⟩⟩
    · rintro ⟨verb, hverb, hmoves, hlonger⟩
      obtain ⟨hfirst, hlonger⟩ := List.forall_mem_cons.mp hlonger
      rcases List.mem_cons.mp hverb with rfl | hverb
      · exact .inl hmoves
      · refine .inr ⟨fun hnoun => ?_, verb, hverb, hmoves, hlonger⟩
        -- A noun in front is longer, or it is this verb.
        rcases (hlongest verb hverb).lt_or_eq with hlt | heq
        · exact hfirst hlt hnoun
        · obtain rfl := Text.eq_of_startsWith hmoves.1 hnoun.1 heq
          exact hmoves.2.1 hnoun.2

end

/-! ### The verb that decides -/

/-- Whether what follows `on` is read with a word: it starts with it, and the word is a noun as well
or can be moved. -/
def Words.decides (words : Words) (rest word : String) : Bool :=
  Text.startsWith (Text.lower rest) word &&
    (words.nouns.contains word || (moveVerb? rest word).isSome)

theorem Words.decides_eq_true_iff : words.decides rest verb = true ↔
    Text.startsWith (Text.lower rest) verb = true ∧
      (verb ∈ words.nouns ∨ (moveVerb? rest verb).isSome = true) := by
  rw [decides, Bool.and_eq_true, Bool.or_eq_true, List.contains_iff_mem]

/-- The search passes over words that do not decide. -/
theorem moveLeading?_append {before verbs : List String}
    (h : ∀ verb ∈ before, ¬ words.decides rest verb = true) :
    moveLeading? words rest (before ++ verbs) = moveLeading? words rest verbs := by
  induction before with
  | nil => rfl
  | cons first before ih =>
    obtain ⟨hfirst, hbefore⟩ := List.forall_mem_cons.mp h
    rw [Words.decides_eq_true_iff, not_and, not_or, Option.not_isSome_iff_eq_none] at hfirst
    rw [List.cons_append, moveLeading?, ih hbefore]
    split_ifs with hstarts hnoun
    · exact absurd (List.contains_iff_mem.mp hnoun) (hfirst hstarts).1
    · rw [(hfirst hstarts).2, Option.none_or]
    · rfl

/-- The longest verb that decides is moved, unless it is also a noun. -/
theorem moveLeading?_of_isLongest (hwords : words.InOrder)
    (h : Naming.IsLongest words.verbs (words.decides rest) verb) :
    moveLeading? words rest words.verbs =
      if verb ∈ words.nouns then none else moveVerb? rest verb := by
  obtain ⟨hdecides, before, after, hverbs, hbefore⟩ :=
    (Naming.isLongest_iff hwords.longestFirst fun a b ha hb =>
      Text.eq_of_startsWith (Words.decides_eq_true_iff.mp ha).1
        (Words.decides_eq_true_iff.mp hb).1).mp h
  obtain ⟨hstarts, hreads⟩ := Words.decides_eq_true_iff.mp hdecides
  rw [hverbs, moveLeading?_append hbefore, moveLeading?, if_pos hstarts]
  by_cases hnoun : verb ∈ words.nouns
  · rw [if_pos (List.contains_iff_mem.mpr hnoun), if_pos hnoun]
  · obtain ⟨suggestion, hmoved⟩ := Option.isSome_iff_exists.mp (hreads.resolve_left hnoun)
    rw [if_neg (List.contains_iff_mem.not.mpr hnoun), if_neg hnoun, hmoved, Option.some_or]

/-! ### Suggestions -/

theorem suggestion?_eq_some (h : suggestion? words prop = some suggestion) :
    ∃ verb leading subject, prop = "on" ++ leading ++ subject ∧
      suggestion = "on" ++ subject ++ leading ∧
      words.Leads (leading ++ subject) verb leading subject := by
  simp only [suggestion?, Option.ite_none_left_eq_some, Bool.or_eq_true, Bool.not_eq_true',
    decide_eq_true_eq, not_or, Bool.not_eq_false] at h
  obtain ⟨⟨⟨hprop, -⟩, -⟩, h⟩ := h
  obtain ⟨verb, hmem, hstarts, hnoun, hmoved⟩ := moveLeading?_eq_some h
  obtain ⟨leading, subject, hrest, hsize, -, hgoesOn, rfl⟩ := moveVerb?_eq_some_iff.mp hmoved
  refine ⟨verb, leading, subject, ?_, rfl, rfl, hmem, hnoun, hrest ▸ hstarts, hsize, hgoesOn⟩
  rw [String.append_assoc, ← hrest]
  obtain ⟨rest, -, hstart⟩ := Text.hasWordStart_iff.mp hprop
  exact eq_append_handlerRest (Text.startsWith_iff.mpr ⟨rest, hstart⟩)

theorem hasWordStart_append : Naming.hasWordStart ("on" ++ rest) "on" = (rest != "") := by
  rw [Naming.hasWordStart, Text.stripStart?_eq_some_iff.mpr rfl]

theorem Words.Leads.two_le_length (h : words.Leads rest verb leading subject)
    (hwords : words.InOrder) : 2 ≤ rest.length := by
  have hleading : leading ≠ "" := by
    rintro rfl
    exact hwords.verb_ne verb h.mem (String.utf8ByteSize_eq_zero_iff.mp h.size.symm)
  have hsubject := ne_empty_of_firstIsUpperOrCaseless h.goesOn
  rw [Ne, ← String.length_eq_zero_iff] at hleading hsubject
  rw [h.rest_eq, String.length_append]
  omega

/-- A name that leads with a verb and does not read as a noun and a verb is searched. -/
theorem suggestion?_of_leads (hwords : words.InOrder)
    (hleads : words.Leads rest verb leading subject) (hreads : ¬ words.ReadsNounVerb rest) :
    suggestion? words ("on" ++ rest) = moveLeading? words rest words.verbs := by
  have hlength := hleads.two_le_length hwords
  have hne : rest ≠ "" := by
    rintro rfl
    exact absurd hlength (by decide)
  rw [← isNounVerb_iff] at hreads
  rw [suggestion?, handlerRest_append, hasWordStart_append, bne_iff_ne.mpr hne,
    decide_eq_false (Nat.not_lt.mpr hlength), Bool.eq_false_of_not_eq_true hreads, if_neg (by decide)]

/-- A better name is suggested for the misordered names. -/
theorem isSome_suggestion?_iff (hwords : words.InOrder) :
    (suggestion? words ("on" ++ rest)).isSome = true ↔ words.Misordered rest := by
  constructor
  · intro h
    rw [suggestion?, handlerRest_append] at h
    split_ifs at h with hskip
    · cases h
    · rw [Bool.or_eq_true, not_or, isNounVerb_iff] at hskip
      obtain ⟨verb, hmem, hmoves, hlonger⟩ := (isSome_moveLeading?_iff hwords.longestFirst).mp h
      obtain ⟨leading, subject, hleads⟩ := exists_leads_iff.mpr ⟨hmem, hmoves⟩
      exact ⟨hskip.2, verb, leading, subject, hleads, hlonger⟩
  · rintro ⟨hreads, verb, leading, subject, hleads, hlonger⟩
    obtain ⟨hmem, hmoves⟩ := exists_leads_iff.mp ⟨leading, subject, hleads⟩
    rw [suggestion?_of_leads hwords hleads hreads, isSome_moveLeading?_iff hwords.longestFirst]
    exact ⟨verb, hmem, hmoves, hlonger⟩

/-- A name that has come to read as a noun and a verb. -/
theorem readsNounVerb_moved (hleads : words.Leads (leading ++ subject) verb leading subject)
    (hascii : Text.IsAscii (leading ++ subject)) (hnoun : Text.lower subject ∈ words.nouns) :
    words.ReadsNounVerb (subject ++ leading) := by
  have hparts := Text.isAscii_append.mp hascii
  refine ⟨_, hnoun, verb, hleads.mem, ?_, subject, leading, rfl, ?_, hleads.goesOn⟩
  · rw [Text.lower_append (Text.isAscii_append.mpr hparts.symm),
      Text.lower_leading hascii hleads.starts hleads.size]
  · rw [Text.utf8ByteSize_lower hparts.2]

/-- If one verb only leads a name, it moves to the end. -/
theorem suggestion?_of_only_verb (hwords : words.InOrder)
    (hleads : words.Leads (leading ++ subject) verb leading subject)
    (hreads : ¬ words.ReadsNounVerb (leading ++ subject))
    (honly : ∀ other ∈ words.verbs,
      Text.startsWith (Text.lower (leading ++ subject)) other = true → other = verb) :
    suggestion? words ("on" ++ (leading ++ subject)) = some ("on" ++ subject ++ leading) := by
  have hmoved : moveVerb? (leading ++ subject) verb = some ("on" ++ subject ++ leading) :=
    moveVerb?_eq_some_iff.mpr ⟨leading, subject, rfl, hleads.size,
      ne_empty_of_firstIsUpperOrCaseless hleads.goesOn, hleads.goesOn, rfl⟩
  have hlongest : Naming.IsLongest words.verbs (words.decides (leading ++ subject)) verb := by
    refine ⟨hleads.mem, Words.decides_eq_true_iff.mpr ⟨hleads.starts, .inr ?_⟩, ?_⟩
    · rw [hmoved, Option.isSome_some]
    · intro other hmem hother
      rw [honly other hmem (Words.decides_eq_true_iff.mp hother).1]
  rw [suggestion?_of_leads hwords hleads hreads, moveLeading?_of_isLongest hwords hlongest,
    if_neg hleads.not_noun, hmoved]

section

variable {file : Subject} {d : Diagnostic}

theorem mem_check_iff : d ∈ check words file ↔ ∃ a ∈ file.attributes, ∃ suggestion,
    suggestion? words a.tagName = some suggestion ∧
      d = ⟨a.nameSpan, "preferNounVerb", [("prop", a.tagName), ("suggestion", suggestion)]⟩ := by
  simp only [check, List.mem_filterMap, Option.map_eq_some_iff, eq_comm (b := d)]

theorem spares_of_not_misordered (hwords : words.InOrder) (h : ¬ words.Misordered rest) :
    (check words).Spares ("on" ++ rest) := by
  intro file d hd
  obtain ⟨a, ha, suggestion, hsuggestion, rfl⟩ := mem_check_iff.mp hd
  refine ⟨a, ha, rfl, rfl, fun hname => h ?_⟩
  rw [← isSome_suggestion?_iff hwords, ← hname, hsuggestion]
  rfl

theorem reports_of_misordered (hwords : words.InOrder) (h : words.Misordered rest) :
    (check words).AlwaysReports ("on" ++ rest) := by
  intro file a ha hname
  obtain ⟨suggestion, hsuggestion⟩ :=
    Option.isSome_iff_exists.mp ((isSome_suggestion?_iff hwords).mpr h)
  refine ⟨_, mem_check_iff.mpr ⟨a, ha, suggestion, by rw [hname, hsuggestion], rfl⟩, rfl, ?_⟩
  rw [hname]
  rfl

/-- **A suggestion settles the finding it is made for unless the new name is misordered again.**
The verb that the name leads with and its subject are exchanged. The new name is never reported if
it is not misordered, as when it has come to read as a noun and a verb, and always if it is. -/
theorem suggestion_settles_unless_misordered {options : Data}
    (hwords : Words.ofData? options = some words) :
    jsxOnNounVerbHandlerProps.configure options = some (check words) ∧
    ∀ file, ∀ d ∈ check words file, ∃ a ∈ file.attributes, ∃ verb leading subject,
      a.tagName = "on" ++ leading ++ subject ∧
      words.Leads (leading ++ subject) verb leading subject ∧
      d = ⟨a.nameSpan, "preferNounVerb",
        [("prop", a.tagName), ("suggestion", "on" ++ subject ++ leading)]⟩ ∧
      (¬ words.Misordered (subject ++ leading) →
        (check words).Spares ("on" ++ subject ++ leading)) ∧
      (words.Misordered (subject ++ leading) →
        (check words).AlwaysReports ("on" ++ subject ++ leading)) ∧
      (Text.IsAscii a.tagName → Text.lower subject ∈ words.nouns →
        ¬ words.Misordered (subject ++ leading)) := by
  have horder := Words.inOrder_of_ofData? hwords
  refine ⟨Option.map_eq_some_iff.mpr ⟨words, hwords, rfl⟩, fun file d hd => ?_⟩
  obtain ⟨a, ha, suggestion, hsuggestion, rfl⟩ := mem_check_iff.mp hd
  obtain ⟨verb, leading, subject, hprop, rfl, hleads⟩ := suggestion?_eq_some hsuggestion
  refine ⟨a, ha, verb, leading, subject, hprop, hleads, rfl, ?_, ?_, fun hascii hnoun h => h.1 ?_⟩
  · rw [String.append_assoc]
    exact spares_of_not_misordered horder
  · rw [String.append_assoc]
    exact reports_of_misordered horder
  · rw [hprop, String.append_assoc, Text.isAscii_append] at hascii
    exact readsNounVerb_moved hleads hascii.2 hnoun

end

/-! ### Two names with the known words -/

/-- The words without options. -/
private def knownWords : Words :=
  ⟨Naming.mergeVocabulary (Naming.handlerVerbs ++ Naming.pastTenseVerbs) [],
    Naming.mergeVocabulary Naming.handlerNouns []⟩

private theorem ofData?_null : Words.ofData? .null = some knownWords := rfl

private theorem mem_knownVerbs :
    verb ∈ knownWords.verbs ↔ verb ∈ Naming.handlerVerbs ++ Naming.pastTenseVerbs := by
  have hlower : ∀ word ∈ Naming.handlerVerbs ++ Naming.pastTenseVerbs,
      word ≠ "" ∧ word.toList.all Char.isLower = true := by
    decide +kernel
  rw [knownWords, Naming.mem_mergeVocabulary_iff_of_isLower hlower]
  simp

private theorem mem_knownNouns {noun : String} :
    noun ∈ knownWords.nouns ↔ noun ∈ Naming.handlerNouns := by
  have hlower : ∀ word ∈ Naming.handlerNouns, word ≠ "" ∧ word.toList.all Char.isLower = true := by
    decide +kernel
  rw [knownWords, Naming.mem_mergeVocabulary_iff_of_isLower hlower]
  simp

/-- A name that starts with one known verb and with no known noun. -/
private theorem suggestion?_knownWords (lowered verb : String)
    (hlower : Text.lower (leading ++ subject) = lowered)
    (hmem : verb ∈ Naming.handlerVerbs ++ Naming.pastTenseVerbs)
    (hstarts : Text.startsWith lowered verb = true)
    (honly : ∀ other ∈ Naming.handlerVerbs ++ Naming.pastTenseVerbs,
      Text.startsWith lowered other = true → other = verb)
    (hnouns : ∀ noun ∈ Naming.handlerNouns, ¬ Text.startsWith lowered noun = true)
    (hsize : leading.utf8ByteSize = verb.utf8ByteSize)
    (hgoesOn : Naming.firstIsUpperOrCaseless subject = true) :
    suggestion? knownWords ("on" ++ (leading ++ subject)) = some ("on" ++ subject ++ leading) := by
  refine suggestion?_of_only_verb (Words.inOrder_of_ofData? ofData?_null)
    ⟨rfl, mem_knownVerbs.mpr hmem, ?_, by rwa [hlower], hsize, hgoesOn⟩ ?_ ?_
  · exact fun hnoun => hnouns verb (mem_knownNouns.mp hnoun) hstarts
  · rintro ⟨noun, hnoun, other, -, hparts, -⟩
    refine hnouns noun (mem_knownNouns.mp hnoun) (Text.startsWith_iff.mpr ⟨other, ?_⟩)
    rw [← hlower, hparts]
  · intro other hother hstart
    exact honly other (mem_knownVerbs.mp hother) (hlower ▸ hstart)

/-- The finding about the attribute of an element. -/
private theorem exists_finding {name : String}
    (hname : (Subject.ofAttribute name).attributes.map Node.tagName = [name])
    (h : suggestion? words name = some suggestion) :
    ∃ d ∈ check words (.ofAttribute name),
      d.data = [("prop", name), ("suggestion", suggestion)] := by
  obtain ⟨a, ha, hprop⟩ := List.mem_map.mp (hname ▸ List.mem_singleton_self name)
  refine ⟨_, mem_check_iff.mpr ⟨a, ha, suggestion, by rw [hprop, h], rfl⟩, ?_⟩
  rw [hprop]

/-- `onValueChange` is suggested for `onChangeValue` and never reported. -/
theorem changeValue_is_settled : ∃ words, Words.ofData? .null = some words ∧
    ∃ d ∈ check words (.ofAttribute "onChangeValue"),
      d.data = [("prop", "onChangeValue"), ("suggestion", "onValueChange")] ∧
      (check words).Spares "onValueChange" := by
  have hsuggestion : suggestion? knownWords ("on" ++ ("Change" ++ "Value")) =
      some ("on" ++ "Value" ++ "Change") :=
    suggestion?_knownWords "changevalue" "change" (by decide +kernel) (by decide)
      (by decide) (by decide +kernel) (by decide +kernel) (by decide) (by decide +kernel)
  have hreads : knownWords.ReadsNounVerb ("Value" ++ "Change") :=
    ⟨"value", mem_knownNouns.mpr (by decide), "change", mem_knownVerbs.mpr (by decide),
      by decide +kernel, "Value", "Change", rfl, by decide, by decide +kernel⟩
  obtain ⟨d, hd, hdata⟩ := exists_finding (by decide +kernel) hsuggestion
  obtain ⟨-, hfindings⟩ := suggestion_settles_unless_misordered ofData?_null
  obtain ⟨a, -, verb, leading, subject, -, -, rfl, hspares, -⟩ := hfindings _ d hd
  simp only [List.cons.injEq, Prod.mk.injEq, true_and, and_true] at hdata
  have hmoved : subject ++ leading = "Value" ++ "Change" := by
    rw [← String.append_right_inj "on", ← String.append_assoc, hdata.2]
    rfl
  refine ⟨knownWords, ofData?_null, _, hd, by rw [hdata.1, hdata.2]; rfl, ?_⟩
  rw [hmoved, hdata.2] at hspares
  exact hspares fun h => h.1 hreads

/-- `onChangeOpen` is suggested for `onOpenChange`, and `onOpenChange` for `onChangeOpen`: both words
are verbs. -/
theorem openChange_goes_round : ∃ check, jsxOnNounVerbHandlerProps.configure .null = some check ∧
    (∃ d ∈ check (.ofAttribute "onOpenChange"),
      d.data = [("prop", "onOpenChange"), ("suggestion", "onChangeOpen")]) ∧
    ∃ d ∈ check (.ofAttribute "onChangeOpen"),
      d.data = [("prop", "onChangeOpen"), ("suggestion", "onOpenChange")] := by
  have hopen : suggestion? knownWords ("on" ++ ("Open" ++ "Change")) =
      some ("on" ++ "Change" ++ "Open") :=
    suggestion?_knownWords "openchange" "open" (by decide +kernel) (by decide)
      (by decide) (by decide +kernel) (by decide +kernel) (by decide) (by decide +kernel)
  have hchange : suggestion? knownWords ("on" ++ ("Change" ++ "Open")) =
      some ("on" ++ "Open" ++ "Change") :=
    suggestion?_knownWords "changeopen" "change" (by decide +kernel) (by decide)
      (by decide) (by decide +kernel) (by decide +kernel) (by decide) (by decide +kernel)
  exact ⟨check knownWords, rfl, exists_finding (by decide +kernel) hopen,
    exists_finding (by decide +kernel) hchange⟩

end NounVerb

end TsxLint
