import Psrl.Converter.WeightLayout

/-!
# Psrl.Converter.Mount

When mounting a plan does what it should.

`flatten` moves the rules of a mounted plan under the mount prefix, and a rule then matches exactly
the names it matched before (`matchesRules_parts`). It does not move what else is relative to
the mounted plan: the prefixes of its policy, the names that rules other than suffix rules
give, its name map, and the name map of the mount. Nor does it keep the rules of a mount at a
prefix above or below from matching too.
-/

namespace Psrl

open Py

variable {α : Type}

/-! ### Names -/

theorem dotted_ne_nil (p r : Text) : dotted p r ≠ [] := by simp [dotted]

theorem dotted_assoc (p q r : Text) : dotted (dotted p q) r = dotted p (dotted q r) := by
  simp [dotted]

theorem rstripDots_dotted {p q : Text} (hne : q ≠ []) (hlast : q.getLast? ≠ some '.') :
    rstripDots (dotted p q) = dotted p q := by
  rw [rstripDots, List.rdropWhile_eq_self_iff]
  intro hne'
  have hgetLast : (dotted p q).getLast hne' = q.getLast hne := by
    simp [dotted, List.getLast_cons hne]
  rw [hgetLast, decide_eq_true_iff]
  intro heq
  exact hlast (by rw [List.getLast?_eq_getLast_of_ne_nil hne, heq])

/-! ### Candidate prefixes -/

theorem splitDots_ne_nil : ∀ text : Text, splitDots text ≠ []
  | [] => List.cons_ne_nil _ _
  | c :: text => by
      rw [splitDots]
      split
      · exact List.cons_ne_nil _ _
      · split <;> exact List.cons_ne_nil _ _

theorem splitDots_dotted (r : Text) :
    ∀ p : Text, splitDots (dotted p r) = splitDots p ++ splitDots r
  | [] => by simp [dotted, splitDots]
  | c :: p => by
      have ih : splitDots (p ++ '.' :: r) = splitDots p ++ splitDots r := splitDots_dotted r p
      show splitDots (c :: (p ++ '.' :: r)) = _
      rw [splitDots, splitDots, ih]
      split
      · rfl
      · cases hparts : splitDots p with
        | nil => exact absurd hparts (splitDots_ne_nil p)
        | cons part parts => rfl

/-- The parts of a text, joined again. -/
theorem splitDots_join : ∀ text : Text, ∃ part parts, splitDots text = part :: parts ∧
    part ++ parts.flatMap (fun x => '.' :: x) = text ∧
    (text ≠ [] → text.head? ≠ some '.' → part ≠ [])
  | [] => ⟨[], [], rfl, rfl, fun h => absurd rfl h⟩
  | c :: text => by
      obtain ⟨part, parts, hsplit, hjoin, -⟩ := splitDots_join text
      rw [splitDots, hsplit]
      by_cases hc : c = '.'
      · rw [if_pos hc]
        exact ⟨[], part :: parts, rfl, by simp [hjoin, hc], fun _ h => absurd (by simp [hc]) h⟩
      · rw [if_neg hc]
        exact ⟨c :: part, parts, rfl, by simp [hjoin], fun _ _ => List.cons_ne_nil _ _⟩

/-- The candidates that follow a candidate. -/
theorem candidates_of_ne_nil {candidate : Text} (h : candidate ≠ []) (part : Text)
    (parts : List Text) : candidates candidate (part :: parts) =
      dotted candidate part :: candidates (dotted candidate part) parts := by
  rw [candidates, if_pos h]

theorem candidates_dotted (p : Text) : ∀ {candidate : Text} (parts : List Text), candidate ≠ [] →
    candidates (dotted p candidate) parts = (candidates candidate parts).map (dotted p)
  | _, [], _ => rfl
  | candidate, part :: parts, h => by
      rw [candidates_of_ne_nil (dotted_ne_nil _ _), candidates_of_ne_nil h, List.map_cons,
        dotted_assoc, candidates_dotted p parts (dotted_ne_nil _ _)]

/-- From a candidate on, the candidates grow up to the whole name. -/
theorem candidates_append (rest : List Text) : ∀ {candidate : Text} (parts : List Text),
    candidate ≠ [] → ∃ shorter, candidate :: candidates candidate (parts ++ rest) =
      shorter ++ (candidate ++ parts.flatMap (fun x => '.' :: x)) ::
        candidates (candidate ++ parts.flatMap (fun x => '.' :: x)) rest ∧
      ∀ x ∈ shorter, x.length < (candidate ++ parts.flatMap (fun x => '.' :: x)).length
  | candidate, [], _ => ⟨[], by simp, fun _ h => (List.not_mem_nil h).elim⟩
  | candidate, part :: parts, h => by
      obtain ⟨shorter, heq, hlength⟩ :=
        candidates_append rest parts (dotted_ne_nil candidate part)
      have hjoin : dotted candidate part ++ parts.flatMap (fun x => '.' :: x) =
          candidate ++ (part :: parts).flatMap (fun x => '.' :: x) := by
        simp [dotted]
      rw [hjoin] at heq hlength
      refine ⟨candidate :: shorter, ?_, ?_⟩
      · rw [List.cons_append, candidates_of_ne_nil h, heq, List.cons_append]
      · intro x hx
        obtain rfl | hx := List.mem_cons.mp hx
        · simp
        · exact hlength x hx

/-- The candidates of a name below a module path: shorter ones, the path, and those below it. -/
theorem candidates_below (p r : ModulePath) : ∃ shorter,
    candidates [] (splitDots (dotted p.text r.text)).dropLast =
      shorter ++ p.text :: (candidates [] (splitDots r.text).dropLast).map (dotted p.text) ∧
    ∀ x ∈ shorter, x.length < p.text.length := by
  obtain ⟨part, parts, hsplit, hjoin, hpart⟩ := splitDots_join p.text
  have hpart := hpart p.ne_nil p.head_ne
  rw [splitDots_dotted, List.dropLast_append_of_ne_nil (splitDots_ne_nil _), hsplit,
    List.cons_append, candidates, if_neg (not_not.mpr rfl)]
  obtain ⟨shorter, heq, hlength⟩ := candidates_append (splitDots r.text).dropLast parts hpart
  rw [hjoin] at heq hlength
  refine ⟨shorter, heq.trans (congrArg (shorter ++ p.text :: ·) ?_), hlength⟩
  -- below the path the candidates are those of the rest of the name
  obtain ⟨part', parts', hsplit', -, hpart'⟩ := splitDots_join r.text
  have hpart' := hpart' r.ne_nil r.head_ne
  rw [hsplit']
  cases parts' with
  | nil => rfl
  | cons second parts' =>
      rw [List.dropLast_cons_of_ne_nil (List.cons_ne_nil _ _), candidates_of_ne_nil p.ne_nil,
        candidates, if_neg (not_not.mpr rfl), List.map_cons, candidates_dotted p.text _ hpart']

/-- A name goes on with a dot after each of its candidates. -/
theorem candidates_isPrefix (name : ModulePath) :
    ∀ c ∈ candidates [] (splitDots name.text).dropLast, c ++ ['.'] <+: name.text := by
  have hgrow : ∀ (parts : List Text) (candidate : Text), candidate ≠ [] → parts ≠ [] →
      ∀ c ∈ candidate :: candidates candidate parts.dropLast,
        c ++ ['.'] <+: candidate ++ parts.flatMap (fun x => '.' :: x) := by
    intro parts
    induction parts with
    | nil => exact fun _ _ h => absurd rfl h
    | cons part parts ih =>
        intro candidate hne _ c hc
        have hfirst : candidate ++ ['.'] <+: candidate ++
            (part :: parts).flatMap (fun x => '.' :: x) := by
          rw [List.prefix_append_right_inj]
          exact ⟨part ++ parts.flatMap (fun x => '.' :: x), by simp⟩
        obtain rfl | hc := List.mem_cons.mp hc
        · exact hfirst
        · cases parts with
          | nil => cases hc
          | cons second parts =>
              rw [List.dropLast_cons_of_ne_nil (List.cons_ne_nil _ _),
                candidates_of_ne_nil hne] at hc
              have hrest := ih _ (dotted_ne_nil candidate part) (List.cons_ne_nil _ _) c hc
              have hjoin : dotted candidate part ++ (second :: parts).flatMap (fun x => '.' :: x) =
                  candidate ++ (part :: second :: parts).flatMap (fun x => '.' :: x) := by
                simp [dotted]
              rwa [hjoin] at hrest
  obtain ⟨part, parts, hsplit, hjoin, hpart⟩ := splitDots_join name.text
  intro c hc
  rw [hsplit] at hc
  cases parts with
  | nil => cases hc
  | cons second parts =>
      rw [List.dropLast_cons_of_ne_nil (List.cons_ne_nil _ _), candidates,
        if_neg (not_not.mpr rfl)] at hc
      have hpre := hgrow (second :: parts) part (hpart name.ne_nil name.head_ne)
        (List.cons_ne_nil _ _) c hc
      rwa [hjoin] at hpre

/-! ### Policies -/

namespace WeightSyncPolicy

/-- An exclusion of the policy matches the name. -/
def Excludes (policy : WeightSyncPolicy) (name : Text) : Prop :=
  (∃ p ∈ policy.excludePrefixes, p <+: name) ∨ ∃ s ∈ policy.excludeSubstrs, s <:+: name

/-- An include prefix of the policy matches the name. -/
def Admits (policy : WeightSyncPolicy) (name : Text) : Prop :=
  ∃ p ∈ policy.includePrefixes, p <+: name

instance (policy : WeightSyncPolicy) (name : Text) : Decidable (policy.Excludes name) :=
  inferInstanceAs (Decidable (_ ∨ _))

instance (policy : WeightSyncPolicy) (name : Text) : Decidable (policy.Admits name) :=
  inferInstanceAs (Decidable (∃ p ∈ policy.includePrefixes, p <+: name))

theorem shouldInclude_iff (policy : WeightSyncPolicy) (name : Text) :
    policy.shouldInclude name = true ↔
      ¬policy.Excludes name ∧ (policy.includePrefixes ≠ [] → policy.Admits name) := by
  simp only [shouldInclude, Excludes, Admits, List.any_eq_true, decide_eq_true_eq]
  split
  · simp [*]
  · split
    · simp [*]
    · split <;> simp_all

theorem Admits.ne_nil {policy : WeightSyncPolicy} {name : Text} (h : policy.Admits name) :
    policy.includePrefixes ≠ [] :=
  h.elim fun _ hp => List.ne_nil_of_mem hp.1

theorem excludes_merge (policy other : WeightSyncPolicy) (name : Text) :
    (policy.merge other).Excludes name ↔ policy.Excludes name ∨ other.Excludes name := by
  simp only [Excludes, merge, List.mem_append, or_and_right, exists_or]
  exact or_or_or_comm

theorem admits_merge (policy other : WeightSyncPolicy) (name : Text) :
    (policy.merge other).Admits name ↔ policy.Admits name ∨ other.Admits name := by
  simp only [Admits, merge, List.mem_append, or_and_right, exists_or]

theorem includePrefixes_merge_ne_nil (policy other : WeightSyncPolicy) :
    (policy.merge other).includePrefixes ≠ [] ↔
      policy.includePrefixes ≠ [] ∨ other.includePrefixes ≠ [] := by
  rw [merge, Ne, List.append_eq_nil_iff, not_and_or]

/-- Merged with another policy, the policy includes the name exactly if it did so before and
`allowed` holds. -/
structure Fits (policy other : WeightSyncPolicy) (name : Text) (allowed : Bool) : Prop where
  included : policy.shouldInclude name = true → allowed = true → ¬other.Excludes name ∧
    (policy.includePrefixes = [] → other.includePrefixes ≠ [] → other.Admits name)
  excluded : policy.shouldInclude name = true → allowed = false → other.Excludes name ∨
    (policy.includePrefixes = [] ∧ other.includePrefixes ≠ [] ∧ ¬other.Admits name)
  above : policy.shouldInclude name = false →
    policy.Excludes name ∨ other.Excludes name ∨ ¬other.Admits name

theorem shouldInclude_merge_iff (policy other : WeightSyncPolicy) (name : Text) (allowed : Bool) :
    ((policy.merge other).shouldInclude name = true ↔
      policy.shouldInclude name = true ∧ allowed = true) ↔ policy.Fits other name allowed := by
  have hmerge := (policy.merge other).shouldInclude_iff name
  rw [excludes_merge, admits_merge, includePrefixes_merge_ne_nil] at hmerge
  have hpolicy := policy.shouldInclude_iff name
  have hadmits : policy.Admits name → policy.includePrefixes ≠ [] := Admits.ne_nil
  have hother : other.Admits name → other.includePrefixes ≠ [] := Admits.ne_nil
  constructor
  · intro h
    constructor <;> grind
  · rintro ⟨hincluded, hexcluded, habove⟩
    grind

theorem merge_assoc (policy other third : WeightSyncPolicy) :
    (policy.merge other).merge third = policy.merge (other.merge third) := by
  simp [merge]

/-- Several policies, merged. -/
def mergeAll (policies : List WeightSyncPolicy) : WeightSyncPolicy :=
  policies.foldr merge ⟨[], [], []⟩

theorem foldl_merge (policies : List WeightSyncPolicy) (policy : WeightSyncPolicy) :
    policies.foldl merge policy = policy.merge (mergeAll policies) := by
  induction policies generalizing policy with
  | nil => simp [mergeAll, merge]
  | cons other policies ih =>
      rw [List.foldl_cons, ih, merge_assoc]
      rfl

theorem mergeAll_append (policies policies' : List WeightSyncPolicy) :
    mergeAll (policies ++ policies') = (mergeAll policies).merge (mergeAll policies') := by
  induction policies with
  | nil => simp [mergeAll, merge]
  | cons policy policies ih => exact (congrArg policy.merge ih).trans (merge_assoc ..).symm

end WeightSyncPolicy

/-! ### Flattening -/

/-- The policy of the mounted plan, with those of its own mounts. -/
def WeightLayoutMount.policy : WeightLayoutMount α → WeightSyncPolicy
  | .mk _ plan _ => plan.flatten.sync

/-- The rules of the mounted plan, under the mount prefix. -/
def WeightLayoutMount.rules : WeightLayoutMount α → List (FlattenedRule α)
  | .mk mountPrefix plan _ => plan.flatten.rules.map (relocate mountPrefix)

/-- The loop appends the rules of the mounts and merges their policies. -/
theorem flattenMounts_eq (mounts : List (WeightLayoutMount α)) :
    ∀ resolved : ResolvedWeightLayoutPlan α, flattenMounts mounts resolved =
      ⟨resolved.rules ++ mounts.flatMap WeightLayoutMount.rules, resolved.nameMap,
        (mounts.map WeightLayoutMount.policy).foldl WeightSyncPolicy.merge resolved.sync⟩ := by
  induction mounts with
  | nil =>
      intro resolved
      simp [flattenMounts]
  | cons mount mounts ih =>
      intro resolved
      obtain ⟨mountPrefix, plan, nameMap⟩ := mount
      rw [flattenMounts, ih]
      simp [ResolvedWeightLayoutPlan.addMount, WeightLayoutMount.rules, WeightLayoutMount.policy]

/-- The prefixes that rules are resolved to: empty, or without a dot at the end. -/
def Resolved (flattened : FlattenedRule α) : Prop :=
  flattened.modulePrefix.getLast? ≠ some '.'

theorem relocate_modulePrefix {p : ModulePath} {flattened : FlattenedRule α}
    (h : Resolved flattened) : (relocate p flattened).modulePrefix =
      if flattened.modulePrefix ≠ [] then dotted p.text flattened.modulePrefix else p.text := by
  rw [relocate]
  by_cases hne : flattened.modulePrefix = []
  · simp [hne]
  · simp only [ne_eq, hne, not_false_eq_true, if_true]
    exact rstripDots_dotted hne h

theorem Resolved.relocate {p : ModulePath} {flattened : FlattenedRule α} (h : Resolved flattened) :
    Resolved (relocate p flattened) := by
  rw [Resolved, relocate_modulePrefix h]
  by_cases hne : flattened.modulePrefix = []
  · rw [if_neg (not_not.mpr hne)]
    exact p.last_ne
  · rw [if_pos hne, dotted, List.getLast?_append_of_ne_nil _ (List.cons_ne_nil _ _),
      List.getLast?_cons_of_ne_nil hne]
    exact h

mutual

theorem resolved_of_mem_flatten : ∀ (plan : WeightLayoutPlan α),
    ∀ flattened ∈ plan.flatten.rules, Resolved flattened
  | .mk rules mounts nameMap sync => by
      intro flattened hmem
      refine resolved_of_mem_flattenMounts mounts _ ?_ flattened hmem
      intro direct hdirect
      obtain ⟨rule, -, rfl⟩ := List.mem_map.mp hdirect
      exact Option.some_ne_none _ ∘ Eq.symm

theorem resolved_of_mem_flattenMounts : ∀ (mounts : List (WeightLayoutMount α))
    (resolved : ResolvedWeightLayoutPlan α), (∀ flattened ∈ resolved.rules, Resolved flattened) →
    ∀ flattened ∈ (flattenMounts mounts resolved).rules, Resolved flattened
  | [], _, h => h
  | .mk mountPrefix plan _ :: mounts, resolved, h => by
      refine resolved_of_mem_flattenMounts mounts _ ?_
      intro flattened hmem
      obtain hmem | hmem := List.mem_append.mp hmem
      · exact h flattened hmem
      · obtain ⟨mounted, hmounted, rfl⟩ := List.mem_map.mp hmem
        exact (resolved_of_mem_flatten plan mounted hmounted).relocate

end

/-! ### Generators -/

namespace Yields

variable {β γ ι : Type}

theorem map_andThen (g : β → γ) (y z : Yields β) :
    (y.andThen z).map g = (y.map g).andThen (z.map g) := by
  obtain ⟨items, error⟩ := y
  cases error with
  | none => simp [andThen, map]
  | some error => rfl

theorem map_forEach (g : β → γ) (f : ι → Yields β) (l : List ι) :
    (forEach f l).map g = forEach (fun x => (f x).map g) l := by
  induction l with
  | nil => rfl
  | cons x l ih => rw [forEach, map_andThen, ih, forEach]

theorem forEach_map {κ : Type} (g : κ → ι) (f : ι → Yields β) (l : List κ) :
    forEach f (l.map g) = forEach (fun x => f (g x)) l := by
  induction l with
  | nil => rfl
  | cons x l ih => rw [List.map_cons, forEach, ih, forEach]

theorem forEach_congr {f g : ι → Yields β} {l : List ι} (h : ∀ x ∈ l, f x = g x) :
    forEach f l = forEach g l := by
  induction l with
  | nil => rfl
  | cons x l ih =>
      rw [forEach, forEach, h x (List.mem_cons_self ..),
        ih fun y hy => h y (List.mem_cons_of_mem _ hy)]

theorem mem_forEach {f : ι → Yields β} {l : List ι} {b : β} (h : b ∈ (forEach f l).items) :
    ∃ x ∈ l, b ∈ (f x).items := by
  induction l with
  | nil => cases h
  | cons x l ih =>
      rw [forEach, andThen] at h
      cases herror : (f x).error with
      | some error =>
          rw [herror] at h
          exact ⟨x, List.mem_cons_self .., h⟩
      | none =>
          rw [herror] at h
          obtain h | h := List.mem_append.mp h
          · exact ⟨x, List.mem_cons_self .., h⟩
          · obtain ⟨y, hy, hb⟩ := ih h
            exact ⟨y, List.mem_cons_of_mem _ hy, hb⟩

theorem forEach_append (f : ι → Yields β) (l l' : List ι) :
    forEach f (l ++ l') = (forEach f l).andThen (forEach f l') := by
  induction l with
  | nil => rfl
  | cons x l ih =>
      rw [List.cons_append, forEach, forEach, ih]
      cases hx : (f x).error <;> cases hl : (forEach f l).error <;> simp [andThen, hx, hl]

theorem forEach_eq_nothing {f : ι → Yields β} {l : List ι} (h : ∀ x ∈ l, f x = nothing) :
    forEach f l = nothing := by
  induction l with
  | nil => rfl
  | cons x l ih =>
      rw [forEach, h x (List.mem_cons_self ..), ih fun y hy => h y (List.mem_cons_of_mem _ hy)]
      rfl

/-- What yields nothing can be left out. -/
theorem forEach_parts {f : ι → Yields β} {parts : List (List ι × List ι × List ι)}
    (h : ∀ x ∈ parts.flatMap fun part => part.1 ++ part.2.2, f x = nothing) :
    forEach f (parts.flatMap fun part => part.1 ++ part.2.1 ++ part.2.2) =
      forEach f (parts.flatMap fun part => part.2.1) := by
  induction parts with
  | nil => rfl
  | cons part parts ih =>
      simp only [List.flatMap_cons, List.mem_append] at h ⊢
      rw [forEach_append, forEach_append, forEach_append, forEach_append,
        ih fun x hx => h x (.inr hx), forEach_eq_nothing fun x hx => h x (.inl (.inl hx)),
        forEach_eq_nothing fun x hx => h x (.inl (.inr hx))]
      generalize forEach f part.2.1 = y
      obtain ⟨items, _ | error⟩ := y <;> simp [andThen, nothing]

theorem length_forEach {f : ι → Yields β} {l : List ι} (h : ∀ x ∈ l, (f x).error = none) :
    (forEach f l).items.length = (l.map fun x => (f x).items.length).sum := by
  induction l with
  | nil => rfl
  | cons x l ih =>
      rw [forEach, andThen, h x (List.mem_cons_self ..), List.map_cons, List.sum_cons,
        ← ih fun y hy => h y (List.mem_cons_of_mem _ hy)]
      exact List.length_append

theorem map_inj_left {f g : β → γ} {y : Yields β} :
    y.map f = y.map g ↔ ∀ x ∈ y.items, f x = g x := by
  simp [map]

end Yields

/-! ### Matching -/

section Matching

variable (fullmatch : Text → Text → Bool)

/-- `matchesAt`, over a list of rules. -/
def ruleMatches (rules : List (FlattenedRule α)) (modulePrefix relativeName : Text) :
    List (FlattenedRule α) :=
  rules.filter fun flattened =>
    decide (flattened.modulePrefix = modulePrefix) && flattened.rule.matches fullmatch relativeName

theorem mem_ruleMatches {rules : List (FlattenedRule α)} {modulePrefix relativeName : Text}
    {flattened : FlattenedRule α} :
    flattened ∈ ruleMatches fullmatch rules modulePrefix relativeName ↔ flattened ∈ rules ∧
      flattened.modulePrefix = modulePrefix ∧
      flattened.rule.matches fullmatch relativeName = true := by
  simp [ruleMatches]

theorem ruleMatches_append (rules rules' : List (FlattenedRule α))
    (modulePrefix relativeName : Text) :
    ruleMatches fullmatch (rules ++ rules') modulePrefix relativeName =
      ruleMatches fullmatch rules modulePrefix relativeName ++
        ruleMatches fullmatch rules' modulePrefix relativeName :=
  List.filter_append ..

theorem ruleMatches_eq_nil {rules : List (FlattenedRule α)} {modulePrefix : Text}
    (h : ∀ flattened ∈ rules, flattened.modulePrefix ≠ modulePrefix) (relativeName : Text) :
    ruleMatches fullmatch rules modulePrefix relativeName = [] := by
  refine List.eq_nil_iff_forall_not_mem.mpr fun flattened hmem => ?_
  obtain ⟨hrules, heq, -⟩ := (mem_ruleMatches fullmatch).mp hmem
  exact h flattened hrules heq

/-- Under a mount, the rules of a prefix are those of the moved prefix. -/
theorem ruleMatches_relocate {p : ModulePath} {rules : List (FlattenedRule α)}
    (h : ∀ flattened ∈ rules, Resolved flattened) (modulePrefix relativeName : Text) :
    ruleMatches fullmatch (rules.map (relocate p))
        (if modulePrefix ≠ [] then dotted p.text modulePrefix else p.text) relativeName =
      (ruleMatches fullmatch rules modulePrefix relativeName).map (relocate p) := by
  rw [ruleMatches, ruleMatches, List.filter_map]
  congr 1
  refine List.filter_congr fun flattened hmem => ?_
  have hiff : (relocate p flattened).modulePrefix =
      (if modulePrefix ≠ [] then dotted p.text modulePrefix else p.text) ↔
        flattened.modulePrefix = modulePrefix := by
    rw [relocate_modulePrefix (h flattened hmem)]
    by_cases hl : flattened.modulePrefix = [] <;> by_cases hr : modulePrefix = [] <;>
      simp [hl, hr, dotted, eq_comm]
  simp only [Function.comp_apply, hiff]
  rfl

theorem isPrefix_relocate {p : ModulePath} {flattened : FlattenedRule α} (h : Resolved flattened) :
    p.text ++ ['.'] <+: (relocate p flattened).modulePrefix ++ ['.'] := by
  rw [relocate_modulePrefix h]
  split
  · exact ⟨flattened.modulePrefix ++ ['.'], by simp [dotted]⟩
  · exact List.prefix_rfl

end Matching

/-! ### A mount in a plan -/

/-- A plan with a place for one more mount, at `mountPrefix` and with the map `mountMap`. -/
structure MountSite (α : Type) where
  rules : List (WeightLayoutRule α)
  before : List (WeightLayoutMount α)
  after : List (WeightLayoutMount α)
  nameMap : Option ReversibleNameMap
  sync : WeightSyncPolicy
  mountPrefix : ModulePath
  mountMap : Option ReversibleNameMap

namespace MountSite

variable (site : MountSite α) (fullmatch : Text → Text → Bool) (mounted : WeightLayoutPlan α)

/-- The name of a parameter of the mounted plan in the whole plan. -/
def below (r : ModulePath) : Text := dotted site.mountPrefix.text r.text

/-- The plan with `mounted` at the site. -/
def plan : WeightLayoutPlan α :=
  .mk site.rules (site.before ++ .mk site.mountPrefix mounted site.mountMap :: site.after)
    site.nameMap site.sync

/-- The plan without a mount at the site. -/
def bare : WeightLayoutPlan α := .mk site.rules (site.before ++ site.after) site.nameMap site.sync

/-- The rules before those of the mounted plan, and after them. -/
def rulesBefore : List (FlattenedRule α) :=
  site.rules.map (fun rule => ⟨[], rule⟩) ++ site.before.flatMap WeightLayoutMount.rules

def rulesAfter : List (FlattenedRule α) := site.after.flatMap WeightLayoutMount.rules

theorem bare_rules : site.bare.flatten.rules = site.rulesBefore ++ site.rulesAfter := by
  rw [bare, WeightLayoutPlan.flatten, flattenMounts_eq, List.flatMap_append, ← List.append_assoc]
  rfl

theorem plan_rules : (site.plan mounted).flatten.rules =
    site.rulesBefore ++ mounted.flatten.rules.map (relocate site.mountPrefix) ++
      site.rulesAfter := by
  rw [plan, WeightLayoutPlan.flatten, flattenMounts_eq]
  simp [rulesBefore, rulesAfter, WeightLayoutMount.rules]

theorem plan_nameMap : (site.plan mounted).flatten.nameMap = site.nameMap := by
  rw [plan, WeightLayoutPlan.flatten, flattenMounts_eq]

/-- The policies of the mounted plans, merged, which is to read them at the root of the plan. -/
def mountPolicy : WeightSyncPolicy :=
  .mergeAll ((site.before ++ .mk site.mountPrefix mounted site.mountMap :: site.after).map
    WeightLayoutMount.policy)

theorem plan_sync :
    (site.plan mounted).flatten.sync = site.sync.merge (site.mountPolicy mounted) := by
  rw [plan, WeightLayoutPlan.flatten, flattenMounts_eq, WeightSyncPolicy.foldl_merge]
  rfl

/-- The policy of the plan decides as that of the plan without the mount, merged with that of the
mounted plan. -/
theorem plan_shouldInclude (name : Text) : (site.plan mounted).flatten.sync.shouldInclude name =
      (site.bare.flatten.sync.merge mounted.flatten.sync).shouldInclude name := by
  have hmounts : site.mountPolicy mounted =
      (WeightSyncPolicy.mergeAll (site.before.map WeightLayoutMount.policy)).merge
        (mounted.flatten.sync.merge (.mergeAll (site.after.map WeightLayoutMount.policy))) := by
    rw [mountPolicy, List.map_append, WeightSyncPolicy.mergeAll_append]
    rfl
  rw [plan_sync, hmounts, bare, WeightLayoutPlan.flatten, flattenMounts_eq,
    WeightSyncPolicy.foldl_merge, List.map_append, WeightSyncPolicy.mergeAll_append,
    Bool.eq_iff_iff, WeightSyncPolicy.shouldInclude_iff, WeightSyncPolicy.shouldInclude_iff]
  simp only [WeightSyncPolicy.excludes_merge, WeightSyncPolicy.admits_merge,
    WeightSyncPolicy.includePrefixes_merge_ne_nil]
  grind

/-- The rules that match a name, of the plan and of the plan without the mount. -/
theorem matchesAt_plan (modulePrefix relativeName : Text) :
    (site.plan mounted).flatten.matchesAt fullmatch modulePrefix relativeName =
      ruleMatches fullmatch site.rulesBefore modulePrefix relativeName ++
        ruleMatches fullmatch (mounted.flatten.rules.map (relocate site.mountPrefix)) modulePrefix
          relativeName ++
        ruleMatches fullmatch site.rulesAfter modulePrefix relativeName := by
  show ruleMatches fullmatch (site.plan mounted).flatten.rules modulePrefix relativeName = _
  rw [plan_rules, ruleMatches_append, ruleMatches_append]

theorem matchesAt_bare (modulePrefix relativeName : Text) :
    site.bare.flatten.matchesAt fullmatch modulePrefix relativeName =
      ruleMatches fullmatch site.rulesBefore modulePrefix relativeName ++
        ruleMatches fullmatch site.rulesAfter modulePrefix relativeName := by
  show ruleMatches fullmatch site.bare.flatten.rules modulePrefix relativeName = _
  rw [bare_rules, ruleMatches_append]

variable {site fullmatch}

/-- Away from the mount prefix the mounted plan has no rule. -/
theorem ruleMatches_away {modulePrefix : Text}
    (h : ¬site.mountPrefix.text ++ ['.'] <+: modulePrefix ++ ['.']) (relativeName : Text) :
    ruleMatches fullmatch (mounted.flatten.rules.map (relocate site.mountPrefix)) modulePrefix
      relativeName = [] := by
  refine ruleMatches_eq_nil fullmatch (fun flattened hmem heq => ?_) relativeName
  obtain ⟨direct, hdirect, rfl⟩ := List.mem_map.mp hmem
  exact h (heq ▸ isPrefix_relocate (resolved_of_mem_flatten mounted direct hdirect))

theorem matchesAt_plan_of_not {modulePrefix : Text}
    (h : ¬site.mountPrefix.text ++ ['.'] <+: modulePrefix ++ ['.']) (relativeName : Text) :
    (site.plan mounted).flatten.matchesAt fullmatch modulePrefix relativeName =
      site.bare.flatten.matchesAt fullmatch modulePrefix relativeName := by
  rw [matchesAt_plan, matchesAt_bare, ruleMatches_away mounted h, List.append_nil]

theorem not_isPrefix_of_length {p : ModulePath} {text : Text} (h : text.length < p.text.length) :
    ¬p.text ++ ['.'] <+: text ++ ['.'] := by
  intro hpre
  have hlength := hpre.length_le
  simp at hlength
  omega

theorem not_isPrefix_nil (p : ModulePath) : ¬p.text ++ ['.'] <+: ([] : Text) ++ ['.'] :=
  not_isPrefix_of_length (List.length_pos_of_ne_nil p.ne_nil)

/-- Outside the mount prefix a name matches the rules it matches without the mount. -/
theorem matchesRules_outside {name : ModulePath}
    (h : ¬site.mountPrefix.text ++ ['.'] <+: name.text) :
    (site.plan mounted).flatten.matchesRules fullmatch name.text =
      site.bare.flatten.matchesRules fullmatch name.text := by
  rw [ResolvedWeightLayoutPlan.matchesRules, ResolvedWeightLayoutPlan.matchesRules,
    matchesAt_plan_of_not mounted (not_isPrefix_nil _)]
  congr 1
  refine List.flatMap_congr fun candidate hmem => ?_
  exact matchesAt_plan_of_not mounted
    (fun hpre => h (hpre.trans (candidates_isPrefix name candidate hmem))) _

/-- Of the mounted plan, those rules match a name below that match the rest of it there. -/
theorem ruleMatches_below (r : ModulePath) :
    (ruleMatches fullmatch (mounted.flatten.rules.map (relocate site.mountPrefix)) []
        (site.below r) ++
      (candidates [] (splitDots (site.below r)).dropLast).flatMap fun candidate =>
        ruleMatches fullmatch (mounted.flatten.rules.map (relocate site.mountPrefix)) candidate
          ((site.below r).drop (candidate.length + 1))) =
      (mounted.flatten.matchesRules fullmatch r.text).map (relocate site.mountPrefix) := by
  obtain ⟨shorter, hcandidates, hlength⟩ := candidates_below site.mountPrefix r
  rw [← below] at hcandidates
  have hresolved := resolved_of_mem_flatten mounted
  have hdrop : ∀ c : Text, (site.below r).drop
      ((dotted site.mountPrefix.text c).length + 1) = r.text.drop (c.length + 1) := by
    intro c
    simp only [below, dotted, List.length_append, List.length_cons, List.drop_append]
    rw [List.drop_of_length_le (by omega), List.nil_append,
      show site.mountPrefix.text.length + (c.length + 1) + 1 - site.mountPrefix.text.length =
        c.length + 1 + 1 by omega, List.drop_succ_cons]
  have hname : (site.below r).drop (site.mountPrefix.text.length + 1) = r.text := by
    simp [below, dotted, List.drop_append]
  -- above the mount prefix nothing matches, at it the direct rules do, and below it the others
  have hat := ruleMatches_relocate fullmatch hresolved (p := site.mountPrefix) [] r.text
  rw [if_neg fun h => h rfl] at hat
  rw [hcandidates, ruleMatches_away mounted (not_isPrefix_nil _), List.nil_append,
    List.flatMap_append, List.flatMap_eq_nil_iff.mpr fun candidate hmem =>
      ruleMatches_away mounted (not_isPrefix_of_length (hlength candidate hmem)) _,
    List.nil_append, List.flatMap_cons, hname, hat, ResolvedWeightLayoutPlan.matchesRules,
    List.map_append, List.flatMap_map, List.map_flatMap]
  refine congrArg _ (List.flatMap_congr fun c hc => ?_)
  have hne : c ≠ [] := by
    rintro rfl
    obtain ⟨rest, hrest⟩ := candidates_isPrefix r [] hc
    exact r.head_ne (by rw [← hrest]; rfl)
  have hrelocate := ruleMatches_relocate fullmatch hresolved (p := site.mountPrefix) c
    (r.text.drop (c.length + 1))
  rw [if_pos hne] at hrelocate
  rw [hdrop]
  exact hrelocate

variable (site fullmatch) in
/-- The rules that match a name below the mount prefix: at each module prefix, those of the mounted
plan stand between those of the mounts before and after it. -/
theorem matchesRules_parts (r : ModulePath) :
    ∃ parts : List (List (FlattenedRule α) × List (FlattenedRule α) × List (FlattenedRule α)),
      (site.plan mounted).flatten.matchesRules fullmatch (site.below r) =
        parts.flatMap (fun part => part.1 ++ part.2.1 ++ part.2.2) ∧
      site.bare.flatten.matchesRules fullmatch (site.below r) =
        parts.flatMap (fun part => part.1 ++ part.2.2) ∧
      (mounted.flatten.matchesRules fullmatch r.text).map (relocate site.mountPrefix) =
        parts.flatMap fun part => part.2.1 := by
  let name := site.below r
  let visits := ([], name) :: (candidates [] (splitDots name).dropLast).map fun candidate =>
    (candidate, name.drop (candidate.length + 1))
  refine ⟨visits.map fun visit => (ruleMatches fullmatch site.rulesBefore visit.1 visit.2,
    ruleMatches fullmatch (mounted.flatten.rules.map (relocate site.mountPrefix)) visit.1 visit.2,
    ruleMatches fullmatch site.rulesAfter visit.1 visit.2), ?_, ?_, ?_⟩
  · simp only [ResolvedWeightLayoutPlan.matchesRules, matchesAt_plan, visits, name,
      List.map_cons, List.map_map, List.flatMap_cons, List.flatMap_map, Function.comp_def]
  · simp only [ResolvedWeightLayoutPlan.matchesRules, matchesAt_bare, visits, name,
      List.map_cons, List.map_map, List.flatMap_cons, List.flatMap_map, Function.comp_def]
  · rw [← ruleMatches_below]
    simp only [visits, name, List.map_cons, List.map_map, List.flatMap_cons, List.flatMap_map,
      Function.comp_def]

variable (site fullmatch) in
theorem perm_matchesRules (r : ModulePath) :
    ((site.plan mounted).flatten.matchesRules fullmatch (site.below r)).Perm
      (site.bare.flatten.matchesRules fullmatch (site.below r) ++
        (mounted.flatten.matchesRules fullmatch r.text).map (relocate site.mountPrefix)) := by
  obtain ⟨parts, hplan, hbare, hmounted⟩ := site.matchesRules_parts fullmatch mounted r
  rw [hplan, hbare, hmounted]
  refine .trans ?_ (List.flatMap_append_perm parts _ _).symm
  refine List.Perm.flatMap_left parts fun part _ => ?_
  rw [List.append_assoc, List.append_assoc]
  exact List.perm_append_comm.append_left _

theorem matchesRules_plan_ne_nil {mounted : WeightLayoutPlan α} {r : ModulePath}
    (h : mounted.flatten.matchesRules fullmatch r.text ≠ []) :
    (site.plan mounted).flatten.matchesRules fullmatch (site.below r) ≠ [] := by
  intro hnil
  have hperm := site.perm_matchesRules fullmatch mounted r
  rw [hnil] at hperm
  simp [h] at hperm

end MountSite

/-! ### Fragments -/

section Fragments

variable (fullmatch : Text → Text → Bool)

/-- The fragments of a parameter, each with its rule; a parameter that no rule matches is one
fragment with no rule. -/
def fragments (plan : ResolvedWeightLayoutPlan α) (name : Text) (param : α) :
    Yields (Option (WeightLayoutRule α) × TransformFragment α) :=
  match plan.matchesRules fullmatch name with
  | [] => ⟨[(none, ⟨none, param, none⟩)], none⟩
  | rules => Yields.forEach (fun flattened =>
      (flattened.rule.transform name).map fun fragment => (some flattened.rule, fragment)) rules

theorem fragments_of_ne_nil {plan : ResolvedWeightLayoutPlan α} {name : Text} {param : α}
    (h : plan.matchesRules fullmatch name ≠ []) :
    fragments fullmatch plan name param = Yields.forEach (fun flattened =>
      (flattened.rule.transform name).map fun fragment => (some flattened.rule, fragment))
        (plan.matchesRules fullmatch name) := by
  rw [fragments]
  split
  · contradiction
  · rfl

theorem length_fragments {plan : ResolvedWeightLayoutPlan α} {name : Text} {param : α}
    (h : plan.matchesRules fullmatch name ≠ [])
    (hquiet : ∀ flattened ∈ plan.matchesRules fullmatch name,
      (flattened.rule.transform name).error = none) :
    (fragments fullmatch plan name param).items.length =
      ((plan.matchesRules fullmatch name).map fun flattened =>
        (flattened.rule.transform name).items.length).sum := by
  rw [fragments_of_ne_nil fullmatch h, Yields.length_forEach (by exact hquiet)]
  simp [Yields.map]

/-- The name of a fragment, before the name map. -/
def sourceName (name : Text) (x : Option (WeightLayoutRule α) × TransformFragment α) : Text :=
  match x.1 with
  | none => name
  | some rule => fragmentName rule name x.2

/-- Whether the name of a fragment starts with what the name of the parameter starts with. -/
def keepsStart (x : Option (WeightLayoutRule α) × TransformFragment α) : Prop :=
  ∀ rule ∈ x.1, x.2.name ≠ none → rule.matchMode = .suffixMode ∧ rule.vllmPattern ≠ []

instance (x : Option (WeightLayoutRule α) × TransformFragment α) : Decidable (keepsStart x) :=
  match hx : x.1, hname : x.2.name with
  | none, _ => isTrue fun rule hrule => by simp [hx] at hrule
  | some _, none => isTrue fun _ _ h => absurd hname h
  | some rule, some _ =>
      decidable_of_iff (rule.matchMode = .suffixMode ∧ rule.vllmPattern ≠ []) (by
        simp [keepsStart, hx, hname])

def converted (nameMap : Option ReversibleNameMap) (name : Text)
    (x : Option (WeightLayoutRule α) × TransformFragment α) : ConvertedWeight α :=
  ⟨applyMap nameMap (sourceName name x), x.2.param, x.2.sharding⟩

theorem execute_eq (plan : ResolvedWeightLayoutPlan α) (name : Text) (param : α) :
    PlanExecutor.execute fullmatch plan name param =
      if plan.sync.shouldInclude name then
        some ((fragments fullmatch plan name param).map (converted plan.nameMap name))
      else none := by
  rw [PlanExecutor.execute, fragments]
  congr 1
  cases hrules : plan.matchesRules fullmatch name with
  | nil => rfl
  | cons rule rules =>
      show some _ = some _
      rw [Yields.map_forEach]
      refine congrArg some (Yields.forEach_congr fun flattened _ => ?_)
      simp [applyRule, Yields.map, converted, sourceName]

/-- A fragment of a suffix rule comes from a name with the suffix. -/
theorem suffix_of_mem_fragments {plan : ResolvedWeightLayoutPlan α} {name : Text} {param : α}
    {x : Option (WeightLayoutRule α) × TransformFragment α}
    (hx : x ∈ (fragments fullmatch plan name param).items) {rule : WeightLayoutRule α}
    (hrule : x.1 = some rule) (hmode : rule.matchMode = .suffixMode) :
    rule.vllmPattern <:+ name := by
  have hmatched : ∃ flattened ∈ plan.matchesRules fullmatch name, flattened.rule = rule := by
    rw [fragments] at hx
    split at hx
    · obtain rfl := List.mem_singleton.mp hx
      cases hrule
    · obtain ⟨flattened, hmem, hitem⟩ := Yields.mem_forEach hx
      obtain ⟨fragment, -, rfl⟩ := List.mem_map.mp hitem
      exact ⟨flattened, hmem, Option.some.inj hrule⟩
  obtain ⟨flattened, hmem, rfl⟩ := hmatched
  have hsuffix : ∀ {relativeName : Text},
      flattened.rule.matches fullmatch relativeName = true → relativeName <:+ name →
        flattened.rule.vllmPattern <:+ name := by
    intro relativeName hmatches hrelative
    rw [WeightLayoutRule.matches, hmode, Bool.and_eq_true, decide_eq_true_iff] at hmatches
    exact hmatches.1.trans hrelative
  rw [ResolvedWeightLayoutPlan.matchesRules, List.mem_append, List.mem_flatMap] at hmem
  obtain hroot | ⟨candidate, -, hat⟩ := hmem
  · exact hsuffix ((mem_ruleMatches fullmatch).mp hroot).2.2 List.suffix_rfl
  · exact hsuffix ((mem_ruleMatches fullmatch).mp hat).2.2 (List.drop_suffix ..)

theorem dropSuffix_dotted {p r pattern : Text} (hsuffix : pattern <:+ r) (hne : pattern ≠ []) :
    dropSuffix (dotted p r) pattern = dotted p (dropSuffix r pattern) := by
  obtain ⟨stem, rfl⟩ := hsuffix
  have hassoc : dotted p (stem ++ pattern) = dotted p stem ++ pattern := by simp [dotted]
  simp only [dropSuffix, if_neg hne, hassoc, List.length_append, Nat.add_sub_cancel,
    List.take_left']

/-- Below a module path a fragment keeps its name, or has the path before it. -/
theorem sourceName_dotted {plan : ResolvedWeightLayoutPlan α} {r : Text} {param : α}
    {x : Option (WeightLayoutRule α) × TransformFragment α}
    (hx : x ∈ (fragments fullmatch plan r param).items) (p : Text) :
    sourceName (dotted p r) x =
      if keepsStart x then dotted p (sourceName r x) else sourceName r x := by
  obtain ⟨rule, hfName, fragment, sharding⟩ := x
  cases rule with
  | none => exact (if_pos fun _ h => absurd h (Option.not_mem_none _)).symm
  | some rule =>
      cases hfName with
      | none => exact (if_pos fun _ _ h => absurd rfl h).symm
      | some hfName =>
          have hkeeps : keepsStart (some rule, ⟨some hfName, fragment, sharding⟩) ↔
              rule.matchMode = .suffixMode ∧ rule.vllmPattern ≠ [] := by
            simp [keepsStart]
          simp only [hkeeps, sourceName, fragmentName, nameBase]
          by_cases hmode : rule.matchMode = .suffixMode
          · have hsuffix := suffix_of_mem_fragments fullmatch hx rfl hmode
            have hbelow : rule.vllmPattern <:+ dotted p r :=
              hsuffix.trans ⟨p ++ ['.'], by simp [dotted]⟩
            by_cases hpattern : rule.vllmPattern = []
            · simp [hmode, hpattern, dropSuffix]
            · simp only [hmode, hsuffix, hbelow, hpattern, and_self, if_true, ne_eq,
                not_false_eq_true, dropSuffix_dotted hsuffix hpattern]
              simp [dotted]
          · simp [hmode]

end Fragments

namespace MountSite

variable (site : MountSite α) (fullmatch : Text → Text → Bool) (mounted : WeightLayoutPlan α)

/-- A weight of the mounted plan, under its name in the whole plan. -/
def rename (weight : ConvertedWeight α) : ConvertedWeight α :=
  { weight with
    name := applyMap site.nameMap (applyMap site.mountMap
      (dotted site.mountPrefix.text weight.name)) }

/-- The parameter `p.r` is included as it should be. -/
def IncludesAsMounted (r : ModulePath) : Prop :=
  (site.plan mounted).flatten.sync.shouldInclude (site.below r) = true ↔
    site.sync.shouldInclude (site.below r) = true ∧
      mounted.flatten.sync.shouldInclude r.text = true

/-- The tensors of `p.r` are those of `r`, under their names in the whole plan. -/
def YieldsAsMounted (r : ModulePath) (param : α) : Prop :=
  PlanExecutor.execute fullmatch (site.plan mounted).flatten
      (site.below r) param =
    (PlanExecutor.execute fullmatch mounted.flatten r.text param).map (Yields.map site.rename)

/-- The mounted plan makes no difference to a name. -/
def LeavesAlone (other : ModulePath) (param : α) : Prop :=
  PlanExecutor.execute fullmatch (site.plan mounted).flatten other.text param =
    PlanExecutor.execute fullmatch site.bare.flatten other.text param

/-- The names that the mounted plan gives come out of the map of the whole plan alone as they
do out of the three maps in turn. -/
def NamesFit (r : Text) (param : α) : Prop :=
  ∀ x ∈ (fragments fullmatch mounted.flatten r param).items,
    applyMap site.nameMap
        (if keepsStart x then dotted site.mountPrefix.text (sourceName r x) else sourceName r x) =
      applyMap site.nameMap (applyMap site.mountMap
        (dotted site.mountPrefix.text (applyMap mounted.flatten.nameMap (sourceName r x))))

/-- The rules of the plan and of other mounts that match `p.r` yield nothing for it. -/
def Undisturbed (r : ModulePath) : Prop :=
  ∀ flattened ∈ site.bare.flatten.matchesRules fullmatch (site.below r),
    flattened.rule.transform (site.below r) = .nothing

/-- The transforms of the mounted plan do not look at the mount prefix; and no other rule matches
`p.r`, or the mounted plan has one that does and none raises. -/
structure Readable (r : ModulePath) : Prop where
  blind : ∀ flattened ∈ mounted.flatten.matchesRules fullmatch r.text,
    flattened.rule.transform (site.below r) = flattened.rule.transform r.text
  quiet : site.bare.flatten.matchesRules fullmatch (site.below r) = [] ∨
    mounted.flatten.matchesRules fullmatch r.text ≠ [] ∧
      ∀ flattened ∈ site.bare.flatten.matchesRules fullmatch (site.below r) ++
          mounted.flatten.matchesRules fullmatch r.text,
        (flattened.rule.transform (site.below r)).error = none

variable {site fullmatch mounted}

theorem includesAsMounted_iff (r : ModulePath) : site.IncludesAsMounted mounted r ↔
    site.sync.Fits (site.mountPolicy mounted) (site.below r)
      (mounted.flatten.sync.shouldInclude r.text) := by
  rw [IncludesAsMounted, plan_sync]
  exact WeightSyncPolicy.shouldInclude_merge_iff ..

/-- Below the mount prefix the fragments are those of the mounted plan. -/
theorem fragments_mounted {r : ModulePath} (param : α)
    (hreadable : site.Readable fullmatch mounted r)
    (hundisturbed : site.Undisturbed fullmatch r) :
    fragments fullmatch (site.plan mounted).flatten (site.below r) param =
      fragments fullmatch mounted.flatten r.text param := by
  have hperm := site.perm_matchesRules fullmatch mounted r
  by_cases hmounted : mounted.flatten.matchesRules fullmatch r.text = []
  · have hbare := hreadable.quiet.resolve_right fun h => h.1 hmounted
    rw [hbare, hmounted] at hperm
    rw [fragments, fragments, hperm.eq_nil, hmounted]
  · obtain ⟨parts, heq, hbare, hrelocated⟩ := site.matchesRules_parts fullmatch mounted r
    rw [fragments_of_ne_nil fullmatch (matchesRules_plan_ne_nil hmounted),
      fragments_of_ne_nil fullmatch hmounted, heq,
      Yields.forEach_parts fun x hx => ?_, ← hrelocated, Yields.forEach_map]
    · refine Yields.forEach_congr fun flattened hmem => ?_
      show Yields.map _ (flattened.rule.transform _) = _
      rw [hreadable.blind flattened hmem]
      rfl
    · rw [hundisturbed x (hbare ▸ hx)]
      rfl

/-- If the mounted plan gives as many fragments as the whole plan, no other rule gives one. -/
theorem undisturbed_of_length {r : ModulePath} {param : α}
    (hreadable : site.Readable fullmatch mounted r)
    (hlength : (fragments fullmatch (site.plan mounted).flatten (site.below r) param).items.length =
      (fragments fullmatch mounted.flatten r.text param).items.length) :
    site.Undisturbed fullmatch r := by
  obtain hnil | ⟨hmounted, hquiet⟩ := hreadable.quiet
  · intro flattened hmem
    rw [hnil] at hmem
    cases hmem
  have hperm := site.perm_matchesRules fullmatch mounted r
  have hquietPlan : ∀ flattened ∈ (site.plan mounted).flatten.matchesRules fullmatch (site.below r),
      (flattened.rule.transform (site.below r)).error = none := by
    intro flattened hmem
    obtain hmem | hmem := List.mem_append.mp (hperm.mem_iff.mp hmem)
    · exact hquiet flattened (List.mem_append_left _ hmem)
    · obtain ⟨direct, hdirect, rfl⟩ := List.mem_map.mp hmem
      exact hquiet direct (List.mem_append_right _ hdirect)
  have hsame : (mounted.flatten.matchesRules fullmatch r.text).map (fun flattened =>
      (flattened.rule.transform (site.below r)).items.length) =
      (mounted.flatten.matchesRules fullmatch r.text).map fun flattened =>
        (flattened.rule.transform r.text).items.length :=
    List.map_congr_left fun flattened hmem => by rw [hreadable.blind flattened hmem]
  have hquietMounted : ∀ flattened ∈ mounted.flatten.matchesRules fullmatch r.text,
      (flattened.rule.transform r.text).error = none := fun flattened hmem =>
    hreadable.blind flattened hmem ▸ hquiet flattened (List.mem_append_right _ hmem)
  rw [length_fragments fullmatch (matchesRules_plan_ne_nil hmounted) hquietPlan,
    length_fragments fullmatch hmounted hquietMounted, (hperm.map _).sum_eq, List.map_append,
    List.sum_append, List.map_map] at hlength
  have hzero := List.sum_eq_zero_iff_forall_eq_nat.mp
    (Nat.add_eq_right.mp (hlength.trans (hsame ▸ rfl)))
  intro flattened hmem
  have hitems := hzero _ (List.mem_map_of_mem hmem)
  have herror := hquiet flattened (List.mem_append_left _ hmem)
  generalize flattened.rule.transform (site.below r) = y at hitems herror ⊢
  obtain ⟨items, error⟩ := y
  obtain rfl := List.eq_nil_of_length_eq_zero hitems
  obtain rfl : error = none := herror
  rfl

theorem yieldsAsMounted_iff {r : ModulePath} (param : α)
    (hreadable : site.Readable fullmatch mounted r)
    (hplan : (site.plan mounted).flatten.sync.shouldInclude (site.below r) = true)
    (hmounted : mounted.flatten.sync.shouldInclude r.text = true) :
    site.YieldsAsMounted fullmatch mounted r param ↔
      site.Undisturbed fullmatch r ∧ site.NamesFit fullmatch mounted r.text param := by
  rw [YieldsAsMounted, execute_eq, execute_eq, if_pos hplan, if_pos hmounted, plan_nameMap,
    Option.map_some, Option.some_inj]
  have hmap : ((fragments fullmatch mounted.flatten r.text param).map
      (converted mounted.flatten.nameMap r.text)).map site.rename =
      (fragments fullmatch mounted.flatten r.text param).map
        (site.rename ∘ converted mounted.flatten.nameMap r.text) := by
    simp [Yields.map]
  have hnames (hundisturbed : site.Undisturbed fullmatch r) :
      (fragments fullmatch (site.plan mounted).flatten (site.below r) param).map
          (converted site.nameMap (site.below r)) =
        (fragments fullmatch mounted.flatten r.text param).map
          (site.rename ∘ converted mounted.flatten.nameMap r.text) ↔
      site.NamesFit fullmatch mounted r.text param := by
    rw [fragments_mounted param hreadable hundisturbed, Yields.map_inj_left, NamesFit]
    refine forall₂_congr fun x hx => ?_
    rw [← sourceName_dotted fullmatch hx]
    simp [converted, rename, below]
  rw [hmap]
  constructor
  · intro h
    -- other rules only add tensors, so the number of tensors excludes them
    have hlength := congrArg (fun y => y.items.length) h
    simp only [Yields.map, List.length_map] at hlength
    have hundisturbed := undisturbed_of_length hreadable hlength
    exact ⟨hundisturbed, (hnames hundisturbed).mp h⟩
  · rintro ⟨hundisturbed, hfit⟩
    exact (hnames hundisturbed).mpr hfit

theorem leavesAlone_iff {other : ModulePath} (param : α)
    (hother : ¬site.mountPrefix.text ++ ['.'] <+: other.text) :
    site.LeavesAlone fullmatch mounted other param ↔
      site.bare.flatten.sync.Fits mounted.flatten.sync other.text true := by
  have hbare : site.bare.flatten.nameMap = site.nameMap := by
    rw [bare, WeightLayoutPlan.flatten, flattenMounts_eq]
  rw [LeavesAlone, execute_eq, execute_eq, plan_nameMap, hbare, fragments, fragments,
    matchesRules_outside mounted hother, plan_shouldInclude,
    ← WeightSyncPolicy.shouldInclude_merge_iff]
  cases (site.bare.flatten.sync.merge mounted.flatten.sync).shouldInclude other.text <;>
    cases site.bare.flatten.sync.shouldInclude other.text <;> simp

/-- When a mount is a homomorphism: which names below the prefix it includes, what it yields for
them, and that it makes no difference outside. -/
theorem mount_homomorphic_iff (site : MountSite α) (fullmatch : Text → Text → Bool)
    (mounted : WeightLayoutPlan α) (param : α) :
    (∀ r : ModulePath, site.IncludesAsMounted mounted r ↔
      site.sync.Fits (site.mountPolicy mounted) (site.below r)
        (mounted.flatten.sync.shouldInclude r.text)) ∧
    (∀ r : ModulePath, site.Readable fullmatch mounted r →
      (site.plan mounted).flatten.sync.shouldInclude (site.below r) = true →
      mounted.flatten.sync.shouldInclude r.text = true →
      (site.YieldsAsMounted fullmatch mounted r param ↔
        site.Undisturbed fullmatch r ∧ site.NamesFit fullmatch mounted r.text param)) ∧
    ∀ other : ModulePath, ¬site.mountPrefix.text ++ ['.'] <+: other.text →
      (site.LeavesAlone fullmatch mounted other param ↔
        site.bare.flatten.sync.Fits mounted.flatten.sync other.text true) :=
  ⟨includesAsMounted_iff, fun _ => yieldsAsMounted_iff param, fun _ => leavesAlone_iff param⟩

/-- One rule, for the name or the suffix `w`, that names its fragment `v`. -/
def oneRule (matchMode : MatchMode) (sync : WeightSyncPolicy) : WeightLayoutPlan Unit :=
  .mk [⟨['w'], matchMode, true, fun _ => ⟨[⟨some ['v'], (), none⟩], none⟩⟩] [] none sync

/-- A mount at `lm`, in a plan with no rules of its own. -/
def atLm (after : List (WeightLayoutMount Unit)) (mountMap : Option ReversibleNameMap) :
    MountSite Unit where
  rules := []
  before := []
  after := after
  nameMap := none
  sync := ⟨[], [], []⟩
  mountPrefix := ⟨['l', 'm'], by decide, by decide, by decide⟩
  mountMap := mountMap

theorem mount_homomorphic_atLm :
    let site := atLm [] none
    let mounted := oneRule .suffixMode ⟨[], [], []⟩
    let r : ModulePath := ⟨['a', '.', 'w'], by decide, by decide, by decide⟩
    site.IncludesAsMounted mounted r ∧
    site.YieldsAsMounted (fun _ _ => false) mounted r () ∧
    site.LeavesAlone (fun _ _ => false) mounted ⟨['x'], by decide, by decide, by decide⟩ () := by
  intro site mounted r
  obtain ⟨hincludes, hyields, houtside⟩ :=
    mount_homomorphic_iff site (fun _ _ => false) mounted ()
  refine ⟨(hincludes r).mpr ?_, (hyields r ⟨?_, .inl rfl⟩ (by decide) (by decide)).mpr ⟨?_, ?_⟩,
    (houtside _ (by decide)).mpr ?_⟩
  · constructor <;> decide
  · intro flattened hmem
    obtain rfl := List.mem_singleton.mp hmem
    rfl
  · intro flattened hmem
    cases hmem
  · intro x hx
    obtain rfl := List.mem_singleton.mp hx
    rfl
  · constructor <;> decide

/-- A mount that is none: the exact rule names its fragment `v` and not `lm.v`, the map of the mount
is not applied, and the policy of the mounted plan, which is about its own names, lets `lm.x`
pass and takes away `x` outside. A rule of a mount at `lm.a` yields one more tensor for
`lm.a.w`. -/
theorem mount_not_homomorphic :
    let site := atLm [] (some ⟨some fun name => some ('h' :: name)⟩)
    let mounted := oneRule .exactMode ⟨[], [['x']], []⟩
    let nested := atLm [.mk ⟨['l', 'm', '.', 'a'], by decide, by decide, by decide⟩
      (oneRule .suffixMode ⟨[], [], []⟩) none] none
    let execute := PlanExecutor.execute fun _ _ => false
    site.bare.flatten.matchesRules (fun _ _ => false) ['l', 'm', '.', 'w'] = [] ∧
    execute (site.plan mounted).flatten ['l', 'm', '.', 'w'] () = some ⟨[⟨['v'], (), none⟩], none⟩ ∧
    (execute mounted.flatten ['w'] ()).map (Yields.map site.rename) =
      some ⟨[⟨['h', 'l', 'm', '.', 'v'], (), none⟩], none⟩ ∧
    (site.plan mounted).flatten.sync.shouldInclude ['l', 'm', '.', 'x'] = true ∧
    site.sync.shouldInclude ['l', 'm', '.', 'x'] = true ∧
    mounted.flatten.sync.shouldInclude ['x'] = false ∧
    execute (site.plan mounted).flatten ['x'] () = none ∧
    execute site.bare.flatten ['x'] () = some ⟨[⟨['x'], (), none⟩], none⟩ ∧
    execute (nested.plan (oneRule .suffixMode ⟨[], [], []⟩)).flatten
        ['l', 'm', '.', 'a', '.', 'w'] () =
      some ⟨[⟨['l', 'm', '.', 'a', '.', 'v'], (), none⟩,
        ⟨['l', 'm', '.', 'a', '.', 'v'], (), none⟩], none⟩ ∧
    (execute (oneRule .suffixMode ⟨[], [], []⟩).flatten ['a', '.', 'w'] ()).map
        (Yields.map nested.rename) =
      some ⟨[⟨['l', 'm', '.', 'a', '.', 'v'], (), none⟩], none⟩ :=
  ⟨rfl, rfl, rfl, by decide, by decide, by decide, rfl, rfl, rfl, rfl⟩

end MountSite

end Psrl
