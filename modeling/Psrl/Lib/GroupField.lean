import Psrl.Lib.Python

/-!
# Psrl.Lib.GroupField

A field shared by the members of a group, kept as one value while the members
agree and as one value for each member once they differ.

`Records field members val` is the meaning of such a field: every member `m` of
`members` has the value `val m`. The operations are the ones a program performs
on it (a member joins, a member's value changes, some members leave); each has a
lemma that says which `val` it records afterwards.
-/

namespace Py

/-- A field that is either one value for the whole group or a list with one value
for each member (`T | list[T]`). -/
inductive GroupField (α : Type)
  | scalar (a : α)
  | list (l : List α)
  deriving Repr, DecidableEq

namespace GroupField

variable {α μ : Type}

/-- The values of the field, as a list. -/
def toList : GroupField α → List α
  | scalar a => [a]
  | list l => l

/-- `isinstance(field, list)`. -/
def isList : GroupField α → Bool
  | scalar _ => false
  | list _ => true

/-- `field if isinstance(field, list) else [field] * n`. -/
def broadcast (n : Nat) : GroupField α → List α
  | scalar a => List.replicate n a
  | list l => l

@[simp] theorem toList_scalar (a : α) : (scalar a).toList = [a] := rfl
@[simp] theorem toList_list (l : List α) : (list l).toList = l := rfl
@[simp] theorem isList_list (l : List α) : (list l).isList = true := rfl

/-- The field gives every member `m` the value `val m`. -/
def Records (field : GroupField α) (members : List μ) (val : μ → α) : Prop :=
  match field with
  | scalar a => ∀ m ∈ members, val m = a
  | list l => l = members.map val

/-- Giving a member the value it has changes nothing. -/
theorem Records.rewrite [DecidableEq μ] {field : GroupField α} {members : List μ} {val : μ → α}
    (h : field.Records members val) {m : μ} :
    field.Records members fun x => if x = m then val m else val x := by
  have hval : (fun x => if x = m then val m else val x) = val := by
    funext x
    split
    · rename_i hx
      rw [hx]
    · rfl
  rw [hval]
  exact h

section Append

variable [DecidableEq α]

/-- A member with value `new` joins. An agreeing scalar stays; a differing scalar
becomes a list of `copies` copies of it followed by `new`. -/
def append (field : GroupField α) (copies : Nat) (new : α) : GroupField α :=
  match field with
  | scalar a => if a = new then scalar a else list (List.replicate copies a ++ [new])
  | list l => list (l ++ [new])

@[simp] theorem append_list (l : List α) (copies : Nat) (new : α) :
    (list l).append copies new = list (l ++ [new]) := rfl

theorem append_scalar (a : α) (copies : Nat) (new : α) :
    (scalar a).append copies new =
      if a = new then scalar a else list (List.replicate copies a ++ [new]) := rfl

theorem mem_append {field : GroupField α} {copies : Nat} {new a : α}
    (h : a ∈ (field.append copies new).toList) : a ∈ field.toList ∨ a = new := by
  cases field with
  | scalar b =>
      rw [append_scalar] at h
      split at h
      · exact .inl h
      · rcases List.mem_append.mp h with h | h
        · exact .inl (by rw [(List.mem_replicate.mp h).2]; simp)
        · exact .inr (List.mem_singleton.mp h)
  | list l => simpa using h

/-- With at least one copy the old values all stay. -/
theorem mem_append_of_mem {field : GroupField α} {copies : Nat} {new a : α}
    (hcopies : 0 < copies) (h : a ∈ field.toList) : a ∈ (field.append copies new).toList := by
  cases field with
  | scalar b =>
      obtain rfl : a = b := by simpa using h
      rw [append_scalar]
      split
      · simp
      · exact List.mem_append_left _ (List.mem_replicate.mpr ⟨by omega, rfl⟩)
  | list l => exact List.mem_append_left _ h

/-- With one copy for each earlier member the joined field records the new value of the
new member and the old values of the others. -/
theorem Records.append [DecidableEq μ] {field : GroupField α} {members : List μ} {val : μ → α}
    (h : field.Records members val) {m : μ} (hm : m ∉ members) (new : α) :
    (field.append members.length new).Records (members ++ [m])
      (fun x => if x = m then new else val x) := by
  have hmap : members.map (fun x => if x = m then new else val x) = members.map val := by
    refine List.map_congr_left fun x hx => if_neg ?_
    rintro rfl
    exact hm hx
  cases field with
  | scalar a =>
      have hval : ∀ x ∈ members, val x = a := h
      rw [append_scalar]
      split
      · rename_i hnew
        intro x hx
        dsimp only
        split
        · exact hnew.symm
        · rename_i hxm
          exact hval x (by simpa [hxm] using hx)
      · show List.replicate members.length a ++ [new] = _
        rw [List.map_append, hmap, List.map_singleton, if_pos rfl,
          List.map_congr_left hval, List.map_const']
  | list l =>
      show l ++ [new] = _
      rw [List.map_append, hmap, List.map_singleton, if_pos rfl, show l = members.map val from h]

/-- The field is no scalar other than `a`. -/
def AgreesWith (field : GroupField α) (a : α) : Prop :=
  match field with
  | scalar b => b = a
  | list _ => True

instance (field : GroupField α) (a : α) : Decidable (field.AgreesWith a) :=
  match field with
  | scalar b => inferInstanceAs (Decidable (b = a))
  | list _ => inferInstanceAs (Decidable True)

/-- With a wrong number of copies a differing scalar is spread over the wrong members; the
joined field is right only if no scalar had to be spread. -/
theorem Records.append_iff [DecidableEq μ] {field : GroupField α} {members : List μ} {val : μ → α}
    (h : field.Records members val) {m : μ} (hm : m ∉ members) {copies : Nat}
    (hcopies : copies ≠ members.length) (new : α) :
    (field.append copies new).Records (members ++ [m]) (fun x => if x = m then new else val x) ↔
      field.AgreesWith new := by
  -- without a scalar to spread, the number of copies does not matter
  have hright : field.append copies new = field.append members.length new →
      (field.append copies new).Records (members ++ [m])
        (fun x => if x = m then new else val x) := fun heq => by
    rw [heq]
    exact h.append hm new
  cases field with
  | list l => exact ⟨fun _ => trivial, fun _ => hright rfl⟩
  | scalar a =>
      by_cases ha : a = new
      · refine ⟨fun _ => ha, fun _ => hright ?_⟩
        rw [append_scalar, append_scalar, if_pos ha, if_pos ha]
      · refine ⟨fun hrec => ?_, fun hagree => absurd hagree ha⟩
        rw [append_scalar, if_neg ha] at hrec
        have hlen := congrArg List.length (show List.replicate copies a ++ [new] = _ from hrec)
        simp only [List.length_append, List.length_replicate, List.length_singleton,
          List.length_map] at hlen
        omega

end Append

/-! ### A member's value changes -/

section SetAt

variable [DecidableEq α] [DecidableEq μ]

/-- `l.index(m)`. -/
def pyIndex (l : List μ) (m : μ) : Except PyError Nat :=
  if m ∈ l then .ok (l.idxOf m) else .error (.valueError "value is not in list")

theorem pyIndex_eq_ok {l : List μ} {m : μ} {i : Nat} :
    pyIndex l m = .ok i ↔ m ∈ l ∧ i = l.idxOf m := by
  unfold pyIndex
  split <;> simp_all [eq_comm]

/-- Set the value of member `m`. A list is written at the member's position; a scalar that
already agrees stays, and is otherwise spread over the members first. -/
def setAt (field : GroupField α) (members : GroupField μ) (m : μ) (new : α) :
    Except PyError (GroupField α) :=
  match field, members with
  | list l, list ms => do
      let i ← pyIndex ms m
      if i < l.length then .ok (list (l.set i new))
      else .error (.indexError "list assignment index out of range")
  | list _, scalar _ => .error (.attributeError "'int' object has no attribute 'index'")
  | scalar a, list ms =>
      if a = new then .ok (scalar a)
      else do
        let i ← pyIndex ms m
        .ok (list ((List.replicate ms.length a).set i new))
  | scalar a, scalar _ => if a = new then .ok (scalar a) else .ok (scalar new)

/-- The value the field holds for member `m`: the scalar, or the entry at its position. -/
def valueOf (field : GroupField α) (members : GroupField μ) (m : μ) : Option α :=
  match field, members with
  | scalar a, _ => some a
  | list l, list ms => l[ms.idxOf m]?
  | list _, scalar _ => none

variable {field field' : GroupField α} {members : GroupField μ} {m : μ} {new : α}

omit [DecidableEq α] in
theorem mem_of_valueOf {a : α} (h : field.valueOf members m = some a) : a ∈ field.toList := by
  cases field with
  | scalar b => simpa [valueOf, eq_comm] using h
  | list l =>
      cases members with
      | scalar _ => cases h
      | list ms => exact List.mem_of_getElem? h

/-- The four shapes of a returning `setAt`. -/
theorem setAt_cases (h : field.setAt members m new = .ok field') :
    (∃ l ms, field = list l ∧ members = list ms ∧ m ∈ ms ∧ ms.idxOf m < l.length ∧
      field' = list (l.set (ms.idxOf m) new)) ∨
    (field = scalar new ∧ field' = scalar new) ∨
    (∃ a ms, field = scalar a ∧ a ≠ new ∧ members = list ms ∧ m ∈ ms ∧
      field' = list ((List.replicate ms.length a).set (ms.idxOf m) new)) ∨
    (∃ a m₀, field = scalar a ∧ members = scalar m₀ ∧ field' = scalar new) := by
  unfold setAt at h
  split at h
  · rename_i l ms
    obtain ⟨i, hi, h⟩ := bind_eq_ok.mp h
    obtain ⟨hm, rfl⟩ := pyIndex_eq_ok.mp hi
    split at h
    · rename_i hlt
      cases h
      exact .inl ⟨l, ms, rfl, rfl, hm, hlt, rfl⟩
    · cases h
  · cases h
  · rename_i a ms
    split at h
    · rename_i ha
      cases h
      exact .inr (.inl ⟨by rw [ha], by rw [ha]⟩)
    · rename_i ha
      obtain ⟨i, hi, h⟩ := bind_eq_ok.mp h
      obtain ⟨hm, rfl⟩ := pyIndex_eq_ok.mp hi
      cases h
      exact .inr (.inr (.inl ⟨a, ms, rfl, ha, rfl, hm, rfl⟩))
  · rename_i a m₀
    split at h
    · rename_i ha
      cases h
      exact .inr (.inl ⟨by rw [ha], by rw [ha]⟩)
    · cases h
      exact .inr (.inr (.inr ⟨a, m₀, rfl, rfl, rfl⟩))

theorem mem_setAt {a : α} (h : field.setAt members m new = .ok field') (ha : a ∈ field'.toList) :
    a ∈ field.toList ∨ a = new := by
  rcases setAt_cases h with ⟨l, ms, rfl, -, -, -, rfl⟩ | ⟨rfl, rfl⟩ | ⟨b, ms, rfl, -, -, -, rfl⟩ |
    ⟨b, m₀, rfl, -, rfl⟩
  · exact List.mem_or_eq_of_mem_set ha
  · exact .inl ha
  · rcases List.mem_or_eq_of_mem_set ha with ha | ha
    · exact .inl (by rw [(List.mem_replicate.mp ha).2]; simp)
    · exact .inr ha
  · exact .inr (by simpa using ha)

theorem mem_setAt_self (h : field.setAt members m new = .ok field') : new ∈ field'.toList := by
  rcases setAt_cases h with ⟨l, ms, -, -, -, hlt, rfl⟩ | ⟨-, rfl⟩ | ⟨b, ms, -, -, -, hm, rfl⟩ |
    ⟨b, m₀, -, -, rfl⟩
  · exact List.mem_set hlt _
  · simp
  · exact List.mem_set (by simpa using List.idxOf_lt_length_of_mem hm) _
  · simp

/-- A list field stands beside a member list that is no longer than it. -/
def Covers (field : GroupField α) (members : GroupField μ) : Prop :=
  ∀ l, field = list l → ∃ ms, members = list ms ∧ ms.length ≤ l.length

instance (field : GroupField α) (members : GroupField μ) : Decidable (field.Covers members) :=
  match field, members with
  | scalar _, _ => isTrue nofun
  | list l, list ms => decidable_of_iff (ms.length ≤ l.length)
      ⟨fun h _ heq => by cases heq; exact ⟨ms, rfl, h⟩, fun h => by
        obtain ⟨_, ⟨⟩, hle⟩ := h l rfl
        exact hle⟩
  | list l, scalar _ => isFalse fun h => by
      obtain ⟨_, ⟨⟩, -⟩ := h l rfl

/-- A member of a covered group can be looked up and set. -/
theorem Covers.setAt_ok (h : field.Covers members) (hm : m ∈ members.toList) (new : α) :
    (∃ a, field.valueOf members m = some a) ∧ ∃ field', field.setAt members m new = .ok field' := by
  cases field with
  | list l =>
      obtain ⟨ms, rfl, hle⟩ := h l rfl
      have hm : m ∈ ms := hm
      have hlt : ms.idxOf m < l.length := (List.idxOf_lt_length_of_mem hm).trans_le hle
      exact ⟨⟨l[ms.idxOf m], List.getElem?_eq_getElem hlt⟩, list (l.set (ms.idxOf m) new),
        by simp [GroupField.setAt, pyIndex, hm, hlt]⟩
  | scalar a =>
      refine ⟨⟨a, rfl⟩, ?_⟩
      cases members with
      | scalar m₀ =>
          unfold GroupField.setAt
          dsimp only
          split
          · exact ⟨_, rfl⟩
          · exact ⟨_, rfl⟩
      | list ms =>
          have hm : m ∈ ms := hm
          unfold GroupField.setAt pyIndex
          simp only [hm, if_true, ok_bind]
          split
          · exact ⟨_, rfl⟩
          · exact ⟨_, rfl⟩

/-- Setting a member's value keeps the lengths. -/
theorem Covers.setAt (h : field.Covers members) (hset : field.setAt members m new = .ok field') :
    field'.Covers members := by
  rcases setAt_cases hset with ⟨l, ms, rfl, rfl, -, -, rfl⟩ | ⟨-, rfl⟩ |
    ⟨b, ms, -, -, rfl, -, rfl⟩ | ⟨b, m₀, -, -, rfl⟩
  · rintro _ ⟨⟩
    obtain ⟨_, heq, hle⟩ := h l rfl
    cases heq
    exact ⟨ms, rfl, by simpa using hle⟩
  · exact fun _ heq => by cases heq
  · rintro _ ⟨⟩
    exact ⟨ms, rfl, by simp⟩
  · exact fun _ heq => by cases heq

omit [DecidableEq μ] in
/-- A joining member keeps a group covered that spreads a scalar over all its members. -/
theorem Covers.append (h : field.Covers members) {copies : Nat}
    (hcopies : members.toList.length ≤ copies) (m : μ) (new : α) :
    (field.append copies new).Covers (list (members.toList ++ [m])) := by
  intro l hl
  refine ⟨_, rfl, ?_⟩
  cases field with
  | scalar a =>
      rw [append_scalar] at hl
      split at hl
      · cases hl
      · cases hl
        simpa using hcopies
  | list l0 =>
      obtain ⟨ms, rfl, hle⟩ := h l0 rfl
      rw [append_list] at hl
      cases hl
      simpa using hle

/-- A member listed once takes the new value; every other member keeps its own. -/
theorem Records.setAt {ms : List μ} {val : μ → α} (h : field.Records ms val) (hnodup : ms.Nodup)
    (hm : m ∈ ms) (new : α) :
    ∃ field', field.setAt (list ms) m new = .ok field' ∧
      field'.Records ms (fun x => if x = m then new else val x) := by
  have hset : ∀ l : List α, l = ms.map val →
      l.set (ms.idxOf m) new = ms.map (fun x => if x = m then new else val x) := by
    rintro l rfl
    refine List.ext_getElem? fun i => ?_
    rw [List.getElem?_set, List.getElem?_map, List.getElem?_map]
    by_cases hi : ms.idxOf m = i
    · subst hi
      rw [if_pos rfl, List.length_map, if_pos (List.idxOf_lt_length_of_mem hm)]
      simp [List.getElem?_idxOf hm]
    · rw [if_neg hi]
      cases hx : ms[i]? with
      | none => rfl
      | some x =>
          have hxm : x ≠ m := by
            rintro rfl
            obtain ⟨hlt, hget⟩ := List.getElem?_eq_some_iff.mp hx
            exact hi (by rw [← hget, hnodup.idxOf_getElem i hlt])
          simp [hxm]
  cases field with
  | list l =>
      have hl : l = ms.map val := h
      have hlt : ms.idxOf m < l.length := by
        rw [hl, List.length_map]
        exact List.idxOf_lt_length_of_mem hm
      refine ⟨list (l.set (ms.idxOf m) new), ?_, hset l hl⟩
      simp [GroupField.setAt, pyIndex, hm, hlt]
  | scalar a =>
      have hval : ∀ x ∈ ms, val x = a := h
      by_cases ha : a = new
      · refine ⟨scalar a, by simp [GroupField.setAt, ha], fun x hx => ?_⟩
        dsimp only
        split
        · exact ha.symm
        · exact hval x hx
      · refine ⟨list ((List.replicate ms.length a).set (ms.idxOf m) new), ?_, ?_⟩
        · simp [GroupField.setAt, pyIndex, hm, ha]
        · exact hset _ (by rw [List.map_congr_left hval, List.map_const'])

/-- A returning change records the new value, unless it names no member: then a scalar of a
single member is overwritten. -/
theorem Records.setAt_iff {val : μ → α} (h : field.Records members.toList val)
    (hnodup : members.toList.Nodup) (hset : field.setAt members m new = .ok field') :
    field'.Records members.toList (fun x => if x = m then new else val x) ↔
      m ∈ members.toList ∨ field = scalar new := by
  have hmember : ∀ ms, members = list ms → m ∈ ms →
      field'.Records ms (fun x => if x = m then new else val x) := by
    rintro ms rfl hm
    obtain ⟨field1, hset1, hrec⟩ := Records.setAt h hnodup hm new
    obtain rfl : field1 = field' := Except.ok.inj (hset1.symm.trans hset)
    exact hrec
  rcases setAt_cases hset with ⟨l, ms, -, rfl, hm, -, -⟩ | ⟨rfl, rfl⟩ |
    ⟨a, ms, -, -, rfl, hm, -⟩ | ⟨a, m₀, rfl, rfl, rfl⟩
  · exact ⟨fun _ => .inl hm, fun _ => hmember ms rfl hm⟩
  · refine ⟨fun _ => .inr rfl, fun _ x hx => ?_⟩
    dsimp only
    split
    · rfl
    · exact h x hx
  · exact ⟨fun _ => .inl hm, fun _ => hmember ms rfl hm⟩
  · have hval : val m₀ = a := h m₀ (List.mem_singleton_self m₀)
    rw [toList_scalar, List.mem_singleton, scalar.injEq]
    show (∀ x ∈ [m₀], (if x = m then new else val x) = new) ↔ _
    rw [List.forall_mem_singleton]
    by_cases hm : m₀ = m
    · simp [hm]
    · rw [if_neg hm, hval]
      simp [Ne.symm hm]

end SetAt

/-! ### Members leave -/

/-- `[l[i] for i in positions]`. -/
def pickAt (l : List α) (positions : List Nat) : Except PyError (List α) :=
  positions.mapM fun i =>
    match l[i]? with
    | some a => .ok a
    | none => .error (.indexError "list index out of range")

/-- The positions of the members that `keep` retains. -/
def keptPositions (keep : μ → Bool) (ms : List μ) : List Nat :=
  (ms.zipIdx.filter fun item => keep item.1).map Prod.snd

/-- Keep only the values at `positions`; a scalar stands for any members. -/
def select (field : GroupField α) (positions : List Nat) : Except PyError (GroupField α) :=
  match field with
  | scalar a => .ok (scalar a)
  | list l => do
      let l ← pickAt l positions
      .ok (list l)

theorem pickAt_cons (l : List α) (i : Nat) (positions : List Nat) :
    pickAt l (i :: positions) =
      (match l[i]? with
        | some a => .ok a
        | none => .error (.indexError "list index out of range")) >>= fun a =>
      pickAt l positions >>= fun rest => .ok (a :: rest) := by
  unfold pickAt
  rw [List.mapM_cons]
  rfl

/-- Positions inside the list can all be picked. -/
theorem pickAt_ok {l : List α} : ∀ {positions : List Nat}, (∀ i ∈ positions, i < l.length) →
    ∃ l', pickAt l positions = .ok l' ∧ l'.length = positions.length
  | [], _ => ⟨[], rfl, rfl⟩
  | i :: positions, h => by
      obtain ⟨rest, hrest, hlen⟩ :=
        pickAt_ok fun j hj => h j (List.mem_cons_of_mem i hj)
      have hi : i < l.length := h i (List.mem_cons_self ..)
      refine ⟨l[i] :: rest, ?_, by simp [hlen]⟩
      rw [pickAt_cons, List.getElem?_eq_getElem hi, hrest]
      rfl

theorem length_of_pickAt {l : List α} : ∀ {positions : List Nat} {l' : List α},
    pickAt l positions = .ok l' → l'.length = positions.length
  | [], l', h => by
      cases h
      rfl
  | i :: positions, l', h => by
      rw [pickAt_cons] at h
      obtain ⟨a, -, h⟩ := bind_eq_ok.mp h
      obtain ⟨rest, hrest, h⟩ := bind_eq_ok.mp h
      cases h
      rw [List.length_cons, length_of_pickAt hrest, List.length_cons]

theorem lt_of_mem_keptPositions {keep : μ → Bool} {ms : List μ} {i : Nat}
    (h : i ∈ keptPositions keep ms) : i < ms.length := by
  obtain ⟨item, hitem, rfl⟩ := List.mem_map.mp h
  have := List.mem_zipIdx (List.mem_filter.mp hitem).1
  omega

/-- Picking the kept positions of a list of members' values gives the values of the kept
members, in their order. -/
theorem pickAt_keptPositions (keep : μ → Bool) (ms : List μ) (val : μ → α) :
    pickAt (ms.map val) (keptPositions keep ms) = .ok ((ms.filter keep).map val) := by
  -- the induction carries the part of the list already passed
  have key : ∀ (ms : List μ) (done : List α),
      pickAt (done ++ ms.map val)
        (((ms.zipIdx done.length).filter fun item => keep item.1).map Prod.snd) =
      .ok ((ms.filter keep).map val) := by
    intro ms
    induction ms with
    | nil => intro done; rfl
    | cons m ms ih =>
        intro done
        have hrest := ih (done ++ [val m])
        simp only [List.length_append, List.length_singleton, List.append_assoc,
          List.singleton_append] at hrest
        by_cases hm : keep m = true
        · simp only [List.zipIdx_cons, List.filter_cons, hm, if_true, List.map_cons]
          rw [pickAt_cons, List.getElem?_append_right (Nat.le_refl _), Nat.sub_self, hrest]
          rfl
        · simp only [List.zipIdx_cons, List.filter_cons, hm, Bool.false_eq_true, if_false,
            List.map_cons]
          exact hrest
  exact key ms []

/-- The members themselves, picked at the kept positions. -/
theorem pickAt_keptPositions_self (keep : μ → Bool) (ms : List μ) :
    pickAt ms (keptPositions keep ms) = .ok (ms.filter keep) := by
  simpa using pickAt_keptPositions keep ms id

/-- The kept members of a covered group can be selected. -/
theorem Covers.select {field : GroupField α} {ms : List μ} (h : field.Covers (list ms))
    (keep : μ → Bool) : ∃ field', field.select (keptPositions keep ms) = .ok field' ∧
      field'.Covers (list (ms.filter keep)) := by
  cases field with
  | scalar a => exact ⟨scalar a, rfl, nofun⟩
  | list l =>
      obtain ⟨_, ⟨⟩, hle⟩ := h l rfl
      obtain ⟨l', hpick, hlen⟩ : ∃ l', pickAt l (keptPositions keep ms) = .ok l' ∧ _ :=
        pickAt_ok fun i hi => (lt_of_mem_keptPositions hi).trans_le hle
      refine ⟨list l', by simp [GroupField.select, hpick], ?_⟩
      rintro _ ⟨⟩
      exact ⟨_, rfl, by rw [hlen, length_of_pickAt (pickAt_keptPositions_self keep ms)]⟩

/-- Selecting the kept members' positions records the same values for them. -/
theorem Records.select {field : GroupField α} {ms : List μ} {val : μ → α}
    (h : field.Records ms val) (keep : μ → Bool) :
    ∃ field', field.select (keptPositions keep ms) = .ok field' ∧
      field'.Records (ms.filter keep) val := by
  cases field with
  | scalar a => exact ⟨scalar a, rfl, fun m hm => h m (List.mem_of_mem_filter hm)⟩
  | list l =>
      refine ⟨list ((ms.filter keep).map val), ?_, rfl⟩
      show (pickAt l (keptPositions keep ms) >>= fun l => .ok (list l)) = _
      rw [show l = ms.map val from h, pickAt_keptPositions]
      rfl

/-- A list that is not filtered along with the members is only right if none of them left. -/
theorem Records.filter_iff {field : GroupField α} {ms : List μ} {val : μ → α}
    (h : field.Records ms val) (keep : μ → Bool) :
    field.Records (ms.filter keep) val ↔ field.isList = false ∨ ∀ m ∈ ms, keep m = true := by
  cases field with
  | scalar a => exact ⟨fun _ => .inl rfl, fun _ m hm => h m (List.mem_of_mem_filter hm)⟩
  | list l =>
      have hl : l = ms.map val := h
      rw [isList_list, ← List.filter_eq_self]
      simp only [Bool.true_eq_false, false_or]
      refine ⟨fun hrec => ?_, fun heq => by rw [heq]; exact h⟩
      have hlen := congrArg List.length (show l = _ from hrec)
      rw [hl, List.length_map, List.length_map] at hlen
      exact List.filter_eq_self.mpr (List.length_filter_eq_length_iff.mp hlen.symm)

end GroupField

end Py
