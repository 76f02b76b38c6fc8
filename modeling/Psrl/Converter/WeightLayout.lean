import Mathlib.Data.List.DropRight
import Mathlib.Data.List.Infix
import Psrl.Nixl.Sharding

/-!
# Psrl.Converter.WeightLayout

Weight layout plans (`vllm_patches/weight_layout.py`) and their execution
(`utils/converter/weight_layout_plan.py`).

A plan says by rules how the parameters of a vLLM model become parameters of a Hugging Face
checkpoint. Plans of sub-models are mounted under module prefixes; `flatten` turns a plan with
its mounts into one list of rules, each with the prefix below which it matches.

Texts are lists of characters. What a transform yields for a parameter is a parameter of the model,
as a function of the full name, which `fused_moe` looks at.
-/

namespace Psrl

open Py

abbrev Text := List Char

/-- What a generator yields before it ends or raises. -/
structure Yields (β : Type) where
  items : List β
  error : Option PyError
  deriving DecidableEq

namespace Yields

variable {β γ : Type}

def nothing : Yields β := ⟨[], none⟩

def map (f : β → γ) (y : Yields β) : Yields γ := ⟨y.items.map f, y.error⟩

/-- `yield from y; yield from z`. -/
def andThen (y z : Yields β) : Yields β :=
  match y.error with
  | some _ => y
  | none => ⟨y.items ++ z.items, z.error⟩

/-- `for x in l: yield from f(x)`. -/
def forEach {ι : Type} (f : ι → Yields β) : List ι → Yields β
  | [] => nothing
  | x :: l => (f x).andThen (forEach f l)

end Yields

/-! ### Plans -/

/-- A module path: not empty, and no dot at either end. -/
structure ModulePath where
  text : Text
  ne_nil : text ≠ []
  head_ne : text.head? ≠ some '.'
  last_ne : text.getLast? ≠ some '.'
  deriving DecidableEq

/-- `f"{p}.{r}"`. -/
def dotted (p r : Text) : Text := p ++ '.' :: r

inductive MatchMode
  | suffixMode
  | prefixMode
  | exactMode
  | regexMode
  deriving Repr, DecidableEq

/-- `TransformFragment`, with the name `None` for an unchanged one. -/
structure TransformFragment (α : Type) where
  name : Option Text
  param : α
  sharding : Option NIXLSharding

structure WeightLayoutRule (α : Type) where
  vllmPattern : Text
  matchMode : MatchMode
  /-- `isinstance(module, module_types)`, or no filter. -/
  moduleMatches : Bool
  /-- What the transform yields for the parameter under a full name. -/
  transform : Text → Yields (TransformFragment α)

/-- `ReversibleNameMap`, its direction to Hugging Face names: a mapper or a dictionary. -/
structure ReversibleNameMap where
  vllmToHf : Option (Text → Option Text)

def ReversibleNameMap.toHf (nameMap : ReversibleNameMap) (name : Text) : Option Text :=
  nameMap.vllmToHf.bind fun mapper => mapper name

def ReversibleNameMap.toHfOrIdentity (nameMap : ReversibleNameMap) (name : Text) : Text :=
  (nameMap.toHf name).getD name

/-- `if name_map is not None: name = name_map.to_hf_or_identity(name)`. -/
def applyMap (nameMap : Option ReversibleNameMap) (name : Text) : Text :=
  match nameMap with
  | some nameMap => nameMap.toHfOrIdentity name
  | none => name

structure WeightSyncPolicy where
  includePrefixes : List Text := []
  excludePrefixes : List Text := []
  excludeSubstrs : List Text := []
  deriving DecidableEq

namespace WeightSyncPolicy

/-- `should_include`. -/
def shouldInclude (policy : WeightSyncPolicy) (name : Text) : Bool :=
  if policy.excludePrefixes.any (fun p => decide (p <+: name)) then false
  else if policy.excludeSubstrs.any (fun s => decide (s <:+: name)) then false
  else if policy.includePrefixes ≠ [] then policy.includePrefixes.any (fun p => decide (p <+: name))
  else true

/-- `merge`. -/
def merge (policy other : WeightSyncPolicy) : WeightSyncPolicy :=
  ⟨policy.includePrefixes ++ other.includePrefixes, policy.excludePrefixes ++ other.excludePrefixes,
    policy.excludeSubstrs ++ other.excludeSubstrs⟩

end WeightSyncPolicy

mutual

inductive WeightLayoutPlan (α : Type)
  | mk (rules : List (WeightLayoutRule α)) (mounts : List (WeightLayoutMount α))
      (nameMap : Option ReversibleNameMap) (sync : WeightSyncPolicy)

inductive WeightLayoutMount (α : Type)
  | mk (mountPrefix : ModulePath) (plan : WeightLayoutPlan α) (nameMap : Option ReversibleNameMap)

end

/-- A rule with the module prefix it is resolved to. -/
structure FlattenedRule (α : Type) where
  modulePrefix : Text
  rule : WeightLayoutRule α

structure ResolvedWeightLayoutPlan (α : Type) where
  rules : List (FlattenedRule α)
  nameMap : Option ReversibleNameMap
  sync : WeightSyncPolicy

variable {α : Type}

/-- `text.rstrip(".")`. -/
def rstripDots (text : Text) : Text := text.rdropWhile (· = '.')

/-- The prefix of a rule of a mounted plan. -/
def relocate (mountPrefix : ModulePath) (flattened : FlattenedRule α) : FlattenedRule α :=
  ⟨if flattened.modulePrefix ≠ [] then rstripDots (dotted mountPrefix.text flattened.modulePrefix)
    else mountPrefix.text, flattened.rule⟩

/-- The body of the loop over the mounts. -/
def ResolvedWeightLayoutPlan.addMount (resolved : ResolvedWeightLayoutPlan α)
    (mountPrefix : ModulePath) (mounted : ResolvedWeightLayoutPlan α) :
    ResolvedWeightLayoutPlan α :=
  { resolved with
    rules := resolved.rules ++ mounted.rules.map (relocate mountPrefix)
    sync := resolved.sync.merge mounted.sync }

mutual

/-- `flatten`. -/
def WeightLayoutPlan.flatten : WeightLayoutPlan α → ResolvedWeightLayoutPlan α
  | .mk rules mounts nameMap sync =>
      flattenMounts mounts ⟨rules.map fun rule => ⟨[], rule⟩, nameMap, sync⟩

/-- The loop over the mounts. -/
def flattenMounts : List (WeightLayoutMount α) → ResolvedWeightLayoutPlan α →
    ResolvedWeightLayoutPlan α
  | [], resolved => resolved
  | .mk mountPrefix plan _ :: mounts, resolved =>
      flattenMounts mounts (resolved.addMount mountPrefix plan.flatten)

end

/-! ### Matching -/

section Execution

variable (fullmatch : Text → Text → Bool)

/-- `matches`. -/
def WeightLayoutRule.matches (rule : WeightLayoutRule α) (name : Text) : Bool :=
  (match rule.matchMode with
    | .exactMode => decide (name = rule.vllmPattern)
    | .suffixMode => decide (rule.vllmPattern <:+ name)
    | .prefixMode => decide (rule.vllmPattern <+: name)
    | .regexMode => fullmatch rule.vllmPattern name) && rule.moduleMatches

/-- `text.split(".")`. -/
def splitDots : Text → List Text
  | [] => [[]]
  | c :: text =>
      if c = '.' then [] :: splitDots text
      else
        match splitDots text with
        | [] => [[c]]
        | part :: parts => (c :: part) :: parts

/-- The candidate prefixes that the parts of a name give. -/
def candidates : Text → List Text → List Text
  | _, [] => []
  | candidate, part :: parts =>
      let next := if candidate ≠ [] then dotted candidate part else part
      next :: candidates next parts

namespace ResolvedWeightLayoutPlan

/-- `_prefix_index[prefix]`, less the rules that do not match. -/
def matchesAt (plan : ResolvedWeightLayoutPlan α) (modulePrefix relativeName : Text) :
    List (FlattenedRule α) :=
  plan.rules.filter fun flattened =>
    decide (flattened.modulePrefix = modulePrefix) && flattened.rule.matches fullmatch relativeName

/-- `matches_rules`. -/
def matchesRules (plan : ResolvedWeightLayoutPlan α) (paramName : Text) : List (FlattenedRule α) :=
  plan.matchesAt fullmatch [] paramName ++
    (candidates [] (splitDots paramName).dropLast).flatMap fun candidate =>
      plan.matchesAt fullmatch candidate (paramName.drop (candidate.length + 1))

end ResolvedWeightLayoutPlan

/-! ### Execution -/

/-- `ConvertedWeight`. -/
structure ConvertedWeight (α : Type) where
  name : Text
  param : α
  sharding : Option NIXLSharding

/-- `text[:-len(pattern)]`. -/
def dropSuffix (text pattern : Text) : Text :=
  if pattern = [] then [] else text.take (text.length - pattern.length)

/-- `name_base`. -/
def nameBase (rule : WeightLayoutRule α) (fullName : Text) : Option Text :=
  if rule.matchMode = .suffixMode ∧ rule.vllmPattern <:+ fullName then
    some (dropSuffix fullName rule.vllmPattern)
  else none

/-- The name of a fragment, before the name map. -/
def fragmentName (rule : WeightLayoutRule α) (fullName : Text) (fragment : TransformFragment α) :
    Text :=
  match fragment.name, nameBase rule fullName with
  | none, _ => fullName
  | some hfName, some base => base ++ hfName
  | some hfName, none => hfName

/-- `_apply_rule`. -/
def applyRule (nameMap : Option ReversibleNameMap) (fullName : Text) (flattened : FlattenedRule α) :
    Yields (ConvertedWeight α) :=
  (flattened.rule.transform fullName).map fun fragment =>
    ⟨applyMap nameMap (fragmentName flattened.rule fullName fragment), fragment.param,
      fragment.sharding⟩

/-- `PlanExecutor.execute`, `none` for a parameter that is excluded. -/
def PlanExecutor.execute (plan : ResolvedWeightLayoutPlan α) (paramName : Text) (param : α) :
    Option (Yields (ConvertedWeight α)) :=
  if plan.sync.shouldInclude paramName then
    match plan.matchesRules fullmatch paramName with
    | [] => some ⟨[⟨applyMap plan.nameMap paramName, param, none⟩], none⟩
    | rules => some (Yields.forEach (applyRule plan.nameMap paramName) rules)
  else none

end Execution

end Psrl
