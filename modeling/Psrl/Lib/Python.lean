import Mathlib.Order.Lattice.Nat
import Mathlib.Data.Finset.Max
import Mathlib.Data.Finset.Union
import Mathlib.Data.Int.Range
import Mathlib.Data.List.Nodup
import Mathlib.Logic.Function.Basic

/-!
# Psrl.Lib.Python

The fragment of the Python runtime that a shallow embedding of Python code
needs: exceptions as an `Except` monad, dictionaries that keep their insertion
order, and sets whose iteration order the language leaves open.

* `PyError` is the exception a call raises; a function that can raise returns
  `Except PyError _`, and `bind_eq_ok` peels such a computation apart.
* `Dict` is `dict`: the list of its items in insertion order, with the proof
  that no key occurs twice carried as a field.
* `SetOrder` is *one* order in which `for x in some_set` may visit a set. Python
  promises nothing about it, so every loop over a set takes such an order as an
  argument and every result about the loop holds for all of them.
* `Coroutine` is a coroutine over an explicit state, for code whose exit paths matter: it
  leaves a state behind also when it raises.
-/

attribute [grind =] Function.update_apply

namespace Py

/-! ### Exceptions -/

/-- An exception of the modelled code with its message; where the code also prints a
structured value, the message stands without it. -/
inductive PyError
  | assertionError (msg : String)
  | attributeError (msg : String)
  | indexError (msg : String)
  | keyError (msg : String)
  | runtimeError (msg : String)
  | typeError (msg : String)
  | valueError (msg : String)
  | zeroDivisionError (msg : String)
  deriving Repr, DecidableEq

/-- `str(e)`. -/
def PyError.text : PyError → String
  | .assertionError msg | .attributeError msg | .indexError msg | .keyError msg
  | .runtimeError msg | .typeError msg | .valueError msg | .zeroDivisionError msg => msg

/-- The texts of some elements, between brackets. -/
def bracketed (opening closing : String) (texts : List String) : String :=
  opening ++ ", ".intercalate texts ++ closing

/-- `repr` of a tuple of integers. -/
def tupleText : List Nat → String
  | [n] => s!"({n},)"
  | ns => bracketed "(" ")" (ns.map toString)

/-- `repr` of a list of strings. -/
def stringsText (strings : List String) : String :=
  bracketed "[" "]" (strings.map fun s => s!"'{s}'")

/-- `repr` of a dictionary, from those of its keys and values. -/
def dictText (items : List (String × String)) : String :=
  bracketed "\x7b" "\x7d" (items.map fun (k, v) => s!"{k}: {v}")

/-- `assert p, msg`. -/
def pyAssert (p : Prop) [Decidable p] (msg : String) : Except PyError Unit :=
  if p then .ok () else .error (.assertionError msg)

/-- `a % b` for natural numbers. -/
def pyMod (a b : Nat) : Except PyError Nat :=
  if b = 0 then .error (.zeroDivisionError "integer modulo by zero") else .ok (a % b)

@[grind =] theorem pyMod_eq_ok {a b c : Nat} : pyMod a b = .ok c ↔ 0 < b ∧ a % b = c := by
  unfold pyMod
  split
  · rename_i hzero
    simp [hzero]
  · rename_i hne
    simp [Nat.pos_of_ne_zero hne]

section Except

variable {ε α β : Type}

@[simp, grind =] theorem ok_bind (a : α) (f : α → Except ε β) : (Except.ok a >>= f) = f a := rfl

@[simp, grind =] theorem error_bind (e : ε) (f : α → Except ε β) :
    ((Except.error e : Except ε α) >>= f) = Except.error e := rfl

@[simp, grind =] theorem pure_eq_ok (a : α) : (pure a : Except ε α) = Except.ok a := rfl

/-- A sequence of two computations returns exactly when both do. -/
@[grind =] theorem bind_eq_ok {x : Except ε α} {f : α → Except ε β} {b : β} :
    (x >>= f) = .ok b ↔ ∃ a, x = .ok a ∧ f a = .ok b := by
  cases x with
  | error e => simp
  | ok a => simp

@[grind =] theorem map_eq_ok {x : Except ε α} {f : α → β} {b : β} :
    x.map f = .ok b ↔ ∃ a, x = .ok a ∧ f a = b := by
  cases x <;> simp [Except.map]

/-- The exception a computation raises, if any. -/
def raised : Except ε α → Option ε
  | .error e => some e
  | .ok _ => none

theorem toOption_eq_some_iff {x : Except ε α} {a : α} : x.toOption = some a ↔ x = .ok a := by
  cases x <;> simp [Except.toOption]

theorem raised_eq_some {x : Except ε α} {e : ε} : raised x = some e ↔ x = .error e := by
  cases x <;> simp [raised]

@[grind =] theorem pyAssert_eq_ok {p : Prop} [Decidable p] {msg : String} {u : Unit} :
    pyAssert p msg = .ok u ↔ p := by
  unfold pyAssert
  split <;> simp_all

@[simp] theorem pyAssert_of {p : Prop} [Decidable p] {msg : String} (h : p) :
    pyAssert p msg = .ok () := if_pos h

/-- A loop over a list whose body keeps `P` and never raises keeps `P` and never
raises. The body may use that the element comes from the list. -/
theorem foldlM_ok {γ : Type} {f : β → γ → Except ε β} {P : β → Prop} :
    ∀ {l : List γ} {b : β}, P b →
      (∀ b c, c ∈ l → P b → ∃ b', f b c = .ok b' ∧ P b') →
      ∃ b', l.foldlM f b = .ok b' ∧ P b'
  | [], b, hb, _ => ⟨b, rfl, hb⟩
  | c :: l, b, hb, hf => by
      obtain ⟨b', hfb, hb'⟩ := hf b c (List.mem_cons_self ..) hb
      obtain ⟨b'', hfold, hb''⟩ :=
        foldlM_ok hb' (fun b d hd => hf b d (List.mem_cons_of_mem _ hd))
      exact ⟨b'', by rw [List.foldlM_cons, hfb, ok_bind]; exact hfold, hb''⟩

theorem exists_left_of_forall₂ {γ : Type} {R : γ → β → Prop} {l : List γ} {bs : List β}
    (h : List.Forall₂ R l bs) {b : β} (hb : b ∈ bs) : ∃ c ∈ l, R c b := by
  induction h with
  | nil => cases hb
  | cons hR _ ih =>
      rcases List.mem_cons.mp hb with rfl | hb
      · exact ⟨_, List.mem_cons_self .., hR⟩
      · obtain ⟨c, hc, hR⟩ := ih hb
        exact ⟨c, List.mem_cons_of_mem _ hc, hR⟩

theorem exists_right_of_forall₂ {γ : Type} {R : γ → β → Prop} {l : List γ} {bs : List β}
    (h : List.Forall₂ R l bs) {c : γ} (hc : c ∈ l) : ∃ b ∈ bs, R c b :=
  exists_left_of_forall₂ h.flip hc

/-- A comprehension over calls that return. -/
theorem mapM_ok {γ : Type} {f : γ → Except ε β} {P : γ → β → Prop} :
    ∀ {l : List γ}, (∀ c ∈ l, ∃ b, f c = .ok b ∧ P c b) →
      ∃ bs, l.mapM f = .ok bs ∧ List.Forall₂ P l bs
  | [], _ => ⟨[], rfl, .nil⟩
  | c :: l, h => by
      obtain ⟨b, hb, hP⟩ := h c (List.mem_cons_self ..)
      obtain ⟨bs, hbs, hall⟩ := mapM_ok fun d hd => h d (List.mem_cons_of_mem _ hd)
      exact ⟨b :: bs, by rw [List.mapM_cons, hb, ok_bind, hbs]; rfl, .cons hP hall⟩

/-- The results of a comprehension, one call each. -/
theorem mapM_eq_ok {γ : Type} {f : γ → Except ε β} :
    ∀ {l : List γ} {bs : List β}, l.mapM f = .ok bs → List.Forall₂ (fun c b => f c = .ok b) l bs
  | [], bs, h => by
      rw [List.mapM_nil, pure_eq_ok] at h
      cases h
      exact .nil
  | c :: l, bs, h => by
      rw [List.mapM_cons, bind_eq_ok] at h
      obtain ⟨b, hb, h⟩ := h
      rw [bind_eq_ok] at h
      obtain ⟨bs', hbs, h⟩ := h
      cases h
      exact .cons hb (mapM_eq_ok hbs)

/-- A loop whose iterations all return is a loop without exceptions. -/
theorem foldlM_eq_foldl {γ : Type} {f : β → γ → Except ε β} {g : β → γ → β} :
    ∀ {l : List γ} {b : β}, (∀ b, ∀ c ∈ l, f b c = .ok (g b c)) →
      l.foldlM f b = .ok (l.foldl g b)
  | [], _, _ => rfl
  | c :: l, b, h => by
      rw [List.foldlM_cons, h b c (List.mem_cons_self ..), ok_bind, List.foldl_cons]
      exact foldlM_eq_foldl fun b d hd => h b d (List.mem_cons_of_mem _ hd)

/-- A property kept by every returning iteration holds after a returning loop. -/
theorem foldlM_invariant {γ : Type} {f : β → γ → Except ε β} {P : β → Prop} :
    ∀ {l : List γ} {b b' : β}, l.foldlM f b = .ok b' → P b →
      (∀ b c b', c ∈ l → P b → f b c = .ok b' → P b') → P b'
  | [], b, b', h, hb, _ => by
      rw [List.foldlM_nil, pure_eq_ok] at h
      cases h
      exact hb
  | c :: l, b, b', h, hb, hf => by
      rw [List.foldlM_cons, bind_eq_ok] at h
      obtain ⟨b1, hb1, hrest⟩ := h
      exact foldlM_invariant hrest (hf b c b1 (List.mem_cons_self ..) hb hb1)
        (fun b d b' hd => hf b d b' (List.mem_cons_of_mem _ hd))

/-- The body of a loop that ends ran on every element. -/
theorem exists_of_foldlM_ok {γ : Type} {f : β → γ → Except ε β} : ∀ {l : List γ} {b b' : β},
    l.foldlM f b = .ok b' → ∀ c ∈ l, ∃ b₁ b₂, f b₁ c = .ok b₂
  | [], _, _, _, _, hc => by cases hc
  | c :: l, b, b', h, c', hc' => by
      rw [List.foldlM_cons] at h
      obtain ⟨b₁, hfirst, hrest⟩ := bind_eq_ok.mp h
      rcases List.mem_cons.mp hc' with rfl | hc'
      · exact ⟨b, b₁, hfirst⟩
      · exact exists_of_foldlM_ok hrest c' hc'

end Except

/-! ### Dictionaries -/

/-- A Python `dict`: its items in insertion order, no key twice. -/
structure Dict (κ ν : Type) where
  items : List (κ × ν)
  nodup_keys : (items.map Prod.fst).Nodup

namespace Dict

variable {κ ν : Type}

/-- `{}`. -/
def empty : Dict κ ν := ⟨[], List.nodup_nil⟩

instance : Inhabited (Dict κ ν) := ⟨empty⟩

/-- `list(d)`: the keys in insertion order. -/
def keys (d : Dict κ ν) : List κ := d.items.map Prod.fst

theorem eq_empty_of_items {d : Dict κ ν} (h : d.items = []) : d = empty := by
  cases d
  cases h
  rfl

variable [DecidableEq κ]

/-- `d.get(k)`. -/
def get? (d : Dict κ ν) (k : κ) : Option ν :=
  (d.items.find? (fun item => item.1 = k)).map Prod.snd

/-- `d[k]`, raising `KeyError` on a missing key. -/
def get (d : Dict κ ν) (k : κ) : Except PyError ν :=
  match d.get? k with
  | some v => .ok v
  | none => .error (.keyError "key not found")

/-- The items of `d[k] = v`: an existing key keeps its place, a new one goes last. -/
def setItems (items : List (κ × ν)) (k : κ) (v : ν) : List (κ × ν) :=
  if k ∈ items.map Prod.fst then items.map (fun item => if item.1 = k then (k, v) else item)
  else items ++ [(k, v)]

theorem setItems_keys (items : List (κ × ν)) (k : κ) (v : ν) :
    (setItems items k v).map Prod.fst =
      if k ∈ items.map Prod.fst then items.map Prod.fst else items.map Prod.fst ++ [k] := by
  unfold setItems
  split
  · rw [List.map_map]
    refine List.map_congr_left fun item _ => ?_
    by_cases hk : item.1 = k <;> simp [hk]
  · simp

/-- `d[k] = v`. -/
def set (d : Dict κ ν) (k : κ) (v : ν) : Dict κ ν where
  items := setItems d.items k v
  nodup_keys := by
    rw [setItems_keys]
    split
    · exact d.nodup_keys
    · rename_i hk
      exact List.nodup_append.mpr
        ⟨d.nodup_keys, by simp, fun a ha b hb hab => hk (by simp_all)⟩

/-- `d.pop(k, None)`. -/
def erase (d : Dict κ ν) (k : κ) : Dict κ ν where
  items := d.items.filter (fun item => item.1 ≠ k)
  nodup_keys := d.nodup_keys.sublist (List.filter_sublist.map _)

/-- `del d[k]`, raising `KeyError` on a missing key. -/
def del (d : Dict κ ν) (k : κ) : Except PyError (Dict κ ν) :=
  match d.get? k with
  | some _ => .ok (d.erase k)
  | none => .error (.keyError "key not found")

@[simp, grind =] theorem get?_empty (k : κ) : (empty : Dict κ ν).get? k = none := rfl

theorem get?_eq_some_iff {d : Dict κ ν} {k : κ} {v : ν} :
    d.get? k = some v ↔ (k, v) ∈ d.items := by
  unfold get?
  constructor
  · intro h
    obtain ⟨item, hfind, rfl⟩ := Option.map_eq_some_iff.mp h
    have hkey : item.1 = k := by simpa using List.find?_some hfind
    subst hkey
    exact List.mem_of_find?_eq_some hfind
  · intro h
    cases hfind : d.items.find? (fun item => item.1 = k) with
    | none => exact absurd (List.find?_eq_none.mp hfind (k, v) h) (by simp)
    | some item =>
        have hkey : item.1 = k := by simpa using List.find?_some hfind
        have : item = (k, v) := List.inj_on_of_nodup_map d.nodup_keys
          (List.mem_of_find?_eq_some hfind) h hkey
        simp [this]

theorem mem_keys_iff {d : Dict κ ν} {k : κ} : k ∈ d.keys ↔ ∃ v, d.get? k = some v := by
  simp [keys, get?_eq_some_iff]

@[simp] theorem get?_set_self (d : Dict κ ν) (k : κ) (v : ν) : (d.set k v).get? k = some v := by
  rw [get?_eq_some_iff]
  show (k, v) ∈ setItems d.items k v
  unfold setItems
  split
  · rename_i hk
    obtain ⟨item, hmem, rfl⟩ := List.mem_map.mp hk
    exact List.mem_map.mpr ⟨item, hmem, by simp⟩
  · simp

theorem get?_set_of_ne (d : Dict κ ν) {k k' : κ} (v : ν) (h : k' ≠ k) :
    (d.set k v).get? k' = d.get? k' := by
  have key : ∀ w, (d.set k v).get? k' = some w ↔ d.get? k' = some w := by
    intro w
    rw [get?_eq_some_iff, get?_eq_some_iff]
    show (k', w) ∈ setItems d.items k v ↔ _
    unfold setItems
    split
    · rw [List.mem_map]
      constructor
      · rintro ⟨item, hmem, heq⟩
        by_cases hk : item.1 = k
        · rw [if_pos hk] at heq
          exact absurd (congrArg Prod.fst heq).symm h
        · rw [if_neg hk] at heq
          exact heq ▸ hmem
      · exact fun hmem => ⟨(k', w), hmem, if_neg h⟩
    · simp [h]
  exact Option.ext key

@[grind =] theorem get?_set (d : Dict κ ν) (k k' : κ) (v : ν) :
    (d.set k v).get? k' = if k' = k then some v else d.get? k' := by
  by_cases h : k' = k
  · subst h
    rw [get?_set_self, if_pos rfl]
  · rw [get?_set_of_ne d v h, if_neg h]

theorem get?_set_ne_none {d : Dict κ ν} {k k' : κ} {v : ν} (h : k' = k ∨ d.get? k' ≠ none) :
    (d.set k v).get? k' ≠ none := by
  rw [get?_set]
  split
  · exact Option.some_ne_none v
  · exact h.resolve_left ‹_›

/-- A loop that sets the values of many keys. -/
theorem get?_foldl_set (value : κ → ν) (k : κ) : ∀ {keys : List κ} {d : Dict κ ν},
    (keys.foldl (fun d k => d.set k (value k)) d).get? k =
      if k ∈ keys then some (value k) else d.get? k
  | [], _ => by simp
  | k' :: keys, d => by
      rw [List.foldl_cons, get?_foldl_set, get?_set]
      by_cases hk : k = k'
      · subst hk
        simp
      · simp [hk]

@[grind =] theorem get?_erase (d : Dict κ ν) (k k' : κ) :
    (d.erase k).get? k' = if k' = k then none else d.get? k' := by
  have key : ∀ w, (d.erase k).get? k' = some w ↔ k' ≠ k ∧ d.get? k' = some w := by
    intro w
    rw [get?_eq_some_iff, get?_eq_some_iff]
    show (k', w) ∈ d.items.filter _ ↔ _
    rw [List.mem_filter, and_comm]
    simp
  by_cases h : k' = k
  · rw [if_pos h]
    cases hget : (d.erase k).get? k' with
    | none => rfl
    | some w => exact absurd h ((key w).mp hget).1
  · rw [if_neg h]
    exact Option.ext fun w => (key w).trans (and_iff_right h)

@[simp] theorem get?_erase_self (d : Dict κ ν) (k : κ) : (d.erase k).get? k = none := by
  rw [get?_erase, if_pos rfl]

theorem items_set_ne_nil (d : Dict κ ν) (k : κ) (v : ν) : (d.set k v).items ≠ [] := by
  intro h
  have hget : (d.set k v).get? k = some v := by rw [get?_set, if_pos rfl]
  rw [eq_empty_of_items h] at hget
  cases hget

omit [DecidableEq κ] in
/-- A list gathered from the items has no duplicates if the parts have none and belong to their
keys only. -/
theorem nodup_flatMap_items_of {γ : Type} {d : Dict κ ν} {f : κ × ν → List γ} (Of : γ → κ → Prop)
    (hfun : ∀ c k k', Of c k → Of c k' → k = k')
    (hnodup : ∀ item ∈ d.items, (f item).Nodup)
    (hkey : ∀ item ∈ d.items, ∀ c ∈ f item, Of c item.1) : (d.items.flatMap f).Nodup := by
  rw [List.nodup_flatMap]
  refine ⟨hnodup, ?_⟩
  have hkeys : d.items.Pairwise fun item other => item.1 ≠ other.1 :=
    List.pairwise_map.mp d.nodup_keys
  refine List.Pairwise.imp_of_mem (fun hitem hother hne => ?_) hkeys
  intro c hc hc'
  exact hne (hfun c _ _ (hkey _ hitem c hc) (hkey _ hother c hc'))

omit [DecidableEq κ] in
/-- The same for parts that name their keys. -/
theorem nodup_flatMap_items {γ : Type} {d : Dict κ ν} {f : κ × ν → List γ} (keyOf : γ → κ)
    (hnodup : ∀ item ∈ d.items, (f item).Nodup)
    (hkey : ∀ item ∈ d.items, ∀ c ∈ f item, keyOf c = item.1) : (d.items.flatMap f).Nodup :=
  nodup_flatMap_items_of (fun c k => keyOf c = k) (fun _ _ _ h h' => h.symm.trans h') hnodup hkey

/-! Dictionaries of dictionaries. -/

section Nested

variable {κ' : Type} [DecidableEq κ']

/-- `d[k][k']`, if there is one. -/
def getIn (d : Dict κ (Dict κ' ν)) (k : κ) (k' : κ') : Option ν := (d.get? k).bind (·.get? k')

/-- `d.setdefault(k, {})[k'] = v`. -/
def setIn (d : Dict κ (Dict κ' ν)) (k : κ) (k' : κ') (v : ν) : Dict κ (Dict κ' ν) :=
  d.set k (((d.get? k).getD .empty).set k' v)

theorem getIn_setIn (d : Dict κ (Dict κ' ν)) (k l : κ) (k' l' : κ') (v : ν) :
    (d.setIn k k' v).getIn l l' = if l = k ∧ l' = k' then some v else d.getIn l l' := by
  rw [getIn, setIn, get?_set]
  by_cases hl : l = k
  · subst hl
    rw [if_pos rfl, Option.bind_some, get?_set, getIn]
    by_cases hl' : l' = k'
    · simp [hl']
    · cases d.get? l <;> simp [hl']
  · simp [hl, getIn]

end Nested

@[grind =] theorem get_eq_ok {d : Dict κ ν} {k : κ} {v : ν} :
    d.get k = .ok v ↔ d.get? k = some v := by
  unfold get
  cases d.get? k <;> simp

theorem del_eq_ok {d d' : Dict κ ν} {k : κ} :
    d.del k = .ok d' ↔ (∃ v, d.get? k = some v) ∧ d' = d.erase k := by
  unfold del
  cases d.get? k <;> simp [eq_comm]

end Dict

/-! ### Sets -/

/-- One order in which a loop may visit the elements of a set. -/
structure SetOrder (α : Type) where
  toList : Finset α → List α
  mem_toList : ∀ (s : Finset α) (a : α), a ∈ toList s ↔ a ∈ s
  nodup_toList : ∀ s : Finset α, (toList s).Nodup

/-- `max(s)` of a set, `none` when it is empty. -/
def setMax (s : Finset Int) : Option Int :=
  if h : s.Nonempty then some (s.max' h) else none

/-- `min(s)` of a set, `none` when it is empty. -/
def setMin (s : Finset Int) : Option Int :=
  if h : s.Nonempty then some (s.min' h) else none

theorem setMax_eq_some {s : Finset Int} {m : Int} :
    setMax s = some m ↔ m ∈ s ∧ ∀ x ∈ s, x ≤ m := by
  unfold setMax
  split
  · rename_i hs
    rw [Option.some.injEq, Finset.max'_eq_iff]
  · rename_i hs
    exact ⟨fun h => (by cases h), fun h => absurd ⟨m, h.1⟩ hs⟩

theorem setMin_eq_some {s : Finset Int} {m : Int} :
    setMin s = some m ↔ m ∈ s ∧ ∀ x ∈ s, m ≤ x := by
  unfold setMin
  split
  · rename_i hs
    rw [Option.some.injEq, Finset.min'_eq_iff]
  · rename_i hs
    exact ⟨fun h => (by cases h), fun h => absurd ⟨m, h.1⟩ hs⟩

theorem setMax_eq_none {s : Finset Int} : setMax s = none ↔ s = ∅ := by
  unfold setMax
  split
  · rename_i hs
    simp [hs.ne_empty]
  · rename_i hs
    simpa using Finset.not_nonempty_iff_eq_empty.mp hs

theorem setMin_eq_none {s : Finset Int} : setMin s = none ↔ s = ∅ := by
  unfold setMin
  split
  · rename_i hs
    simp [hs.ne_empty]
  · rename_i hs
    simpa using Finset.not_nonempty_iff_eq_empty.mp hs

/-- The order that visits a set of integers from the smallest to the largest. -/
def SetOrder.ascending : SetOrder Int where
  toList := fun s =>
    match setMin s, setMax s with
    | some low, some high => (Int.range low (high + 1)).filter (· ∈ s)
    | _, _ => []
  mem_toList := by
    intro s a
    split
    · rename_i low high hlow hhigh
      rw [List.mem_filter, decide_eq_true_eq, Int.mem_range_iff]
      refine and_iff_right_of_imp fun ha => ?_
      have := (setMin_eq_some.mp hlow).2 a ha
      have := (setMax_eq_some.mp hhigh).2 a ha
      omega
    · rename_i hnone
      refine ⟨fun h => absurd h List.not_mem_nil, fun ha => ?_⟩
      cases hlow : setMin s with
      | none =>
          rw [setMin_eq_none.mp hlow] at ha
          exact absurd ha (Finset.notMem_empty a)
      | some low =>
          cases hhigh : setMax s with
          | none =>
              rw [setMax_eq_none.mp hhigh] at ha
              exact absurd ha (Finset.notMem_empty a)
          | some high => exact absurd hhigh (hnone low high hlow)
  nodup_toList := by
    intro s
    split
    · refine (List.Nodup.map (fun i j hij => ?_) List.nodup_range).filter _
      omega
    · exact List.nodup_nil

/-- The order that visits a set of natural numbers from the smallest to the largest. -/
def SetOrder.ascendingNat : SetOrder Nat where
  toList := fun s => (List.range (s.sup id + 1)).filter (· ∈ s)
  mem_toList := by
    intro s a
    rw [List.mem_filter, decide_eq_true_eq, List.mem_range]
    exact and_iff_right_of_imp fun ha => Nat.lt_succ_of_le (Finset.le_sup (f := id) ha)
  nodup_toList := fun _ => List.nodup_range.filter _

/-- `min(l)`, raising `ValueError` on an empty sequence. -/
def pyMin (l : List Int) : Except PyError Int :=
  match l.min? with
  | some m => .ok m
  | none => .error (.valueError "min() arg is an empty sequence")

theorem pyMin_eq_ok {l : List Int} {m : Int} :
    pyMin l = .ok m ↔ m ∈ l ∧ ∀ x ∈ l, m ≤ x := by
  unfold pyMin
  rw [← List.min?_eq_some_iff]
  cases l.min? <;> simp

theorem pyMin_ok_of_ne_nil {l : List Int} (h : l ≠ []) : ∃ m, pyMin l = .ok m := by
  unfold pyMin
  cases hm : l.min? with
  | none => exact absurd (List.min?_eq_none_iff.mp hm) h
  | some m => exact ⟨m, rfl⟩

/-! ### Coroutines -/

/-- A coroutine over a state: it may raise, and leaves a state behind in either case. -/
abbrev Coroutine (σ : Type) := ExceptT PyError (StateM σ)

namespace Coroutine

variable {σ α β : Type}

/-- Run a coroutine: what it returns or raises, and the state it leaves behind. -/
def perform (s : σ) (operation : Coroutine σ α) : Except PyError α × σ := operation.run.run s

@[simp] theorem perform_pure (s : σ) (a : α) : perform s (pure a) = (.ok a, s) := rfl

@[simp] theorem perform_throw (s : σ) (e : PyError) :
    perform s (throw e : Coroutine σ α) = (.error e, s) := rfl

@[simp] theorem perform_modify (s : σ) (f : σ → σ) :
    perform s (modify f : Coroutine σ Unit) = (.ok (), f s) := rfl

@[simp] theorem perform_get (s : σ) : perform s (get : Coroutine σ σ) = (.ok s, s) := rfl

theorem perform_bind (s : σ) (x : Coroutine σ α) (f : α → Coroutine σ β) :
    perform s (x >>= f) = match perform s x with
      | (.ok a, s') => perform s' (f a)
      | (.error e, s') => (.error e, s') := by
  unfold perform
  simp only [ExceptT.run_bind, StateT.run_bind]
  rcases StateT.run (ExceptT.run x) s with ⟨a | a, s'⟩
  · rfl
  · rfl

/-- An operation that changes the state only when it returns. -/
def atomic (f : σ → Except PyError (α × σ)) : Coroutine σ α := do
  match f (← get) with
  | .ok (a, s) => set s; return a
  | .error e => throw e

theorem perform_atomic (s : σ) (f : σ → Except PyError (α × σ)) :
    perform s (atomic f) = match f s with
      | .ok (a, s') => (.ok a, s')
      | .error e => (.error e, s) := by
  unfold atomic
  rw [perform_bind, perform_get]
  dsimp only
  rcases f s with e | ⟨a, s'⟩
  · rfl
  · rfl

theorem perform_tryCatch (s : σ) (x : Coroutine σ α) (f : PyError → Coroutine σ α) :
    perform s (tryCatch x f) = match perform s x with
      | (.ok a, s') => (.ok a, s')
      | (.error e, s') => perform s' (f e) := by
  unfold perform
  simp only [tryCatch, tryCatchThe, MonadExceptOf.tryCatch, ExceptT.tryCatch, ExceptT.run_mk,
    StateT.run_bind]
  rcases hx : StateT.run (ExceptT.run x) s with ⟨a | a, s'⟩
  all_goals
    unfold ExceptT.run at hx
    rw [hx]
    rfl

end Coroutine

end Py
