import Psrl.Gen.SessionRuns

/-!
# Psrl.Gen.SessionVersions

**Version freshness inside a session.** A turn is sent the version tag its session has at the
admission, and the session's tag is overwritten with the version that served the turn when it
completes. The upstream never serves a turn with an older version than it was sent, but turns
overlap: one that was admitted before another one had completed does not know the other's version.
The tag of a session can only grow as long as every turn that completes was sent a tag at least as
fresh as the session's (`InOrder`).

`version` reads a tag; the router itself only copies tags.
-/

namespace Psrl

open Py

/-- The tag a turn was sent with. -/
def Turn.sentTag (turn : Turn) : Option String := turn.sent.get? "x-version-tag"

namespace SessionRouter

variable {version : String → Nat} {s s' : SessionRouter}

/-- A tag of the second kind is at least as fresh as the one of the first kind, if there is one. -/
def TagLe (version : String → Nat) (tag tag' : Option String) : Prop :=
  ∀ v ∈ tag, ∃ v' ∈ tag', version v ≤ version v'

instance (version : String → Nat) (tag tag' : Option String) : Decidable (TagLe version tag tag') :=
  inferInstanceAs (Decidable (∀ v ∈ tag, ∃ v' ∈ tag', version v ≤ version v'))

theorem TagLe.refl (tag : Option String) : TagLe version tag tag :=
  fun v hv => ⟨v, hv, Nat.le_refl _⟩

/-- The version that serves a turn which completes. -/
def servedTag (result : HttpResponse) : Option String :=
  if result.status < 400 then result.headers.get? "x-version-tag" else none

/-- The upstream serves a turn with a version that is not older than the tag it was sent. -/
def Upstream (version : String → Nat) (s : SessionRouter) : Action → Prop
  | .finish i (some result) _ => ∀ turn ∈ s.turns[i]?, ∀ w ∈ servedTag result,
      ∀ v ∈ turn.sentTag, version v ≤ version w
  | _ => True

/-- A turn that completes was sent a tag at least as fresh as the one its session has now. -/
def InOrder (version : String → Nat) (s : SessionRouter) : Action → Prop
  | .finish i (some _) _ => ∀ turn ∈ s.turns[i]?,
      TagLe version (s.objects turn.ref).versionTag turn.sentTag
  | _ => True

instance (s : SessionRouter) (a : Action) : Decidable (s.Upstream version a) :=
  match a with
  | .finish _ (some _) _ => by dsimp only [Upstream]; infer_instance
  | .finish _ none _ | .chat .. | .wake _ | .readBody _ | .abandon _ | .delete _ | .drained _
  | .deleteAnswered _ | .hang _ | .continueSessions _ => .isTrue trivial

instance (s : SessionRouter) (a : Action) : Decidable (s.InOrder version a) :=
  match a with
  | .finish _ (some _) _ => by dsimp only [InOrder]; infer_instance
  | .finish _ none _ | .chat .. | .wake _ | .readBody _ | .abandon _ | .delete _ | .drained _
  | .deleteAnswered _ | .hang _ | .continueSessions _ => .isTrue trivial

/-- The tag of the session replaces whatever tag the headers carry. -/
theorem get?_upstreamHeaders {strategy : TrajectoryIdStrategy} {request : Dict String String}
    {state : SessionState} {tag : String} (htag : state.versionTag = some tag) :
    (upstreamHeaders strategy request state).get? "x-version-tag" = some tag := by
  unfold upstreamHeaders
  dsimp only
  rw [htag]
  cases state.pinOnceInstance with
  | none => exact Dict.get?_set_self ..
  | some inst =>
      dsimp only
      rw [Dict.get?_set_of_ne _ _ (by decide), Dict.get?_set_of_ne _ _ (by decide),
        Dict.get?_set_of_ne _ _ (by decide), Dict.get?_set_self]

theorem closeTurn_versionTag (state : SessionState) (trajectoryId : Option Int)
    (result : Option HttpResponse) : (state.closeTurn trajectoryId result).versionTag =
      (result.bind servedTag).or state.versionTag := by
  have hhang : ∀ state : SessionState, state.applyDeferredHang.versionTag = state.versionTag := by
    intro state
    unfold SessionState.applyDeferredHang
    split <;> rfl
  unfold SessionState.closeTurn
  rw [hhang]
  cases result with
  | none => rfl
  | some result =>
      unfold SessionState.settle servedTag
      simp only [Option.bind_some]
      split <;> rfl

/-! ### The invariant -/

/-- The tags and the history of served versions stay as they are. -/
def SameTags (s s' : SessionRouter) : Prop :=
  ∀ ref, (s'.objects ref).versionTag = (s.objects ref).versionTag ∧ s'.served ref = s.served ref

theorem SameTags.refl (s : SessionRouter) : SameTags s s := fun _ => ⟨rfl, rfl⟩

theorem SameTags.trans {s'' : SessionRouter} (h : SameTags s s') (h' : SameTags s' s'') :
    SameTags s s'' :=
  fun ref => ⟨(h' ref).1.trans (h ref).1, (h' ref).2.trans (h ref).2⟩

/-- An object is replaced by one with the same tag. -/
theorem sameTags_update (ref : Nat) (state : SessionState)
    (htag : state.versionTag = (s.objects ref).versionTag)
    (hobjects : s'.objects = Function.update s.objects ref state) (hserved : s'.served = s.served) :
    SameTags s s' := by
  intro r
  rw [hobjects, hserved, Function.update_apply]
  refine ⟨?_, rfl⟩
  split
  · rename_i hr
    rw [htag, hr]
  · rfl

structure Fresh (version : String → Nat) (s : SessionRouter) : Prop where
  served : ∀ ref, ∀ w ∈ s.served ref, TagLe version (some w) (s.objects ref).versionTag
  sent : ∀ turn ∈ s.turns, ∀ w ∈ turn.servedBefore, TagLe version (some w) turn.sentTag
  unused : ∀ ref, s.nextRef ≤ ref → (s.objects ref).versionTag = none ∧ s.served ref = []

namespace Fresh

theorem init (strategy : TrajectoryIdStrategy) : Fresh version (init strategy) where
  served _ _ hw := absurd hw List.not_mem_nil
  sent _ hturn := absurd hturn List.not_mem_nil
  unused _ _ := ⟨rfl, rfl⟩

section

variable (h : Fresh version s)

include h

/-- Steps that do not complete a turn. -/
theorem congr (hsame : SameTags s s') (hnext : s.nextRef ≤ s'.nextRef)
    (hsent : ∀ turn ∈ s'.turns, ∀ w ∈ turn.servedBefore, TagLe version (some w) turn.sentTag) :
    Fresh version s' where
  served ref w hw := by
    rw [(hsame ref).2] at hw
    rw [(hsame ref).1]
    exact h.served ref w hw
  sent := hsent
  unused ref href := by
    rw [(hsame ref).1, (hsame ref).2]
    exact h.unused ref (hnext.trans href)

theorem ensureState (sid : String) :
    Fresh version (s.ensureState sid).2 ∧ SameTags s (s.ensureState sid).2 := by
  have hsame : SameTags s (s.ensureState sid).2 := by
    unfold SessionRouter.ensureState
    split
    · exact .refl s
    · exact sameTags_update s.nextRef (SessionState.new _)
        (h.unused s.nextRef (Nat.le_refl _)).1.symm rfl rfl
  have hturns : (s.ensureState sid).2.turns = s.turns ∧
      s.nextRef ≤ (s.ensureState sid).2.nextRef := by
    unfold SessionRouter.ensureState
    split
    · exact ⟨rfl, Nat.le_refl _⟩
    · exact ⟨rfl, Nat.le_succ _⟩
  refine ⟨h.congr hsame hturns.2 ?_, hsame⟩
  rw [hturns.1]
  exact h.sent

/-- A turn in front of the hang point: if it is admitted, it is sent the session's tag. -/
theorem enter {turn : Turn} (hturn : ∀ w ∈ turn.servedBefore, TagLe version (some w) turn.sentTag) :
    SameTags s (s.enter turn).1 ∧ (s.enter turn).1.turns = s.turns ∧
      (s.enter turn).1.nextRef = s.nextRef ∧
      ∀ w ∈ (s.enter turn).2.servedBefore, TagLe version (some w) (s.enter turn).2.sentTag := by
  obtain ⟨phase, -, -, henter⟩ | ⟨-, -, henter⟩ := Inv.enter_cases s turn
  · rw [henter]
    exact ⟨.refl s, rfl, rfl, hturn⟩
  · rw [henter]
    refine ⟨sameTags_update turn.ref (s.objects turn.ref).admitTurn rfl rfl rfl, rfl, rfl,
      fun w hw v hv => ?_⟩
    obtain ⟨tag, htag, hle⟩ := h.served turn.ref w hw v hv
    exact ⟨tag, get?_upstreamHeaders htag, hle⟩

theorem startTurn (turn : Turn)
    (hturn : ∀ w ∈ turn.servedBefore, TagLe version (some w) turn.sentTag) :
    Fresh version (s.startTurn turn) ∧ SameTags s (s.startTurn turn) := by
  obtain ⟨hsame, hturns, hnext, hsent⟩ := h.enter hturn
  refine ⟨h.congr hsame hnext.ge fun t ht => ?_, hsame⟩
  have ht : t ∈ (s.enter turn).1.turns ++ [(s.enter turn).2] := ht
  obtain ht | ht := List.mem_append.mp ht
  · rw [hturns] at ht
    exact h.sent t ht
  · rw [List.mem_singleton.mp ht]
    exact hsent

/-- A turn goes on without completing. -/
theorem resumeTurn {i : Nat} {f : Turn → SessionRouter × Turn}
    (hf : ∀ turn ∈ s.turns, SameTags s (f turn).1 ∧ (f turn).1.turns = s.turns ∧
      (f turn).1.nextRef = s.nextRef ∧
      ∀ w ∈ (f turn).2.servedBefore, TagLe version (some w) (f turn).2.sentTag) :
    Fresh version (s.resumeTurn i f) ∧ SameTags s (s.resumeTurn i f) := by
  unfold SessionRouter.resumeTurn
  cases hi : s.turns[i]? with
  | none => exact ⟨h, .refl s⟩
  | some turn =>
      obtain ⟨hsame, hturns, hnext, hsent⟩ := hf turn (List.mem_of_getElem? hi)
      refine ⟨h.congr hsame hnext.ge fun t ht => ?_, hsame⟩
      obtain ht | rfl := List.mem_or_eq_of_mem_set ht
      · rw [hturns] at ht
        exact h.sent t ht
      · exact hsent

theorem hangSession (sid : String) :
    Fresh version (s.hangSession sid) ∧ SameTags s (s.hangSession sid) := by
  unfold SessionRouter.hangSession
  split
  · exact ⟨h, .refl s⟩
  · rename_i ref _
    have hsame : SameTags s { s with
        objects := Function.update s.objects ref (s.objects ref).hang
        hangDeferred := if (s.objects ref).closing = true then s.hangDeferred
          else Function.update s.hangDeferred ref (decide (0 < (s.objects ref).inflight)) } := by
      refine sameTags_update ref (s.objects ref).hang ?_ rfl rfl
      unfold SessionState.hang
      split
      · rfl
      · split <;> rfl
    exact ⟨h.congr hsame (Nat.le_refl _) h.sent, hsame⟩

theorem continueSession (pin : String × Option (String × String)) :
    Fresh version (s.continueSession pin) ∧ SameTags s (s.continueSession pin) := by
  unfold SessionRouter.continueSession
  split
  · exact ⟨h, .refl s⟩
  · rename_i ref _
    obtain ⟨sid, inst⟩ := pin
    cases inst with
    | none =>
        have hsame : SameTags s { s with
            objects := Function.update s.objects ref ((s.objects ref).continueWith none)
            hangDeferred := Function.update s.hangDeferred ref false } :=
          sameTags_update ref ((s.objects ref).continueWith none) rfl rfl rfl
        exact ⟨h.congr hsame (Nat.le_refl _) h.sent, hsame⟩
    | some inst =>
        have hsame : SameTags s { s with
            objects := Function.update s.objects ref ((s.objects ref).continueWith (some inst))
            hangDeferred := Function.update s.hangDeferred ref false
            armed := Function.update s.armed ref (some s.pinCount)
            pinCount := s.pinCount + 1 } :=
          sameTags_update ref ((s.objects ref).continueWith (some inst)) rfl rfl rfl
        exact ⟨h.congr hsame (Nat.le_refl _) h.sent, hsame⟩

end

/-- A list of commands. -/
theorem foldl {α : Type} {f : SessionRouter → α → SessionRouter}
    (hf : ∀ s a, Fresh version s → Fresh version (f s a) ∧ SameTags s (f s a)) (l : List α) :
    ∀ {s : SessionRouter}, Fresh version s →
      Fresh version (l.foldl f s) ∧ SameTags s (l.foldl f s) := by
  induction l with
  | nil => exact fun h => ⟨h, .refl _⟩
  | cons a rest ih =>
      intro s h
      obtain ⟨hnext, hsame⟩ := hf s a h
      obtain ⟨hrest, hsame'⟩ := ih hnext
      exact ⟨hrest, hsame.trans hsame'⟩

theorem deleteSession (h : Fresh version s) (sid : String) :
    Fresh version (s.deleteSession sid) ∧ SameTags s (s.deleteSession sid) := by
  obtain ⟨hensured, hsame⟩ := h.ensureState sid
  unfold SessionRouter.deleteSession
  obtain ⟨⟨ref, s1⟩, hs1⟩ : ∃ r, s.ensureState sid = r := ⟨_, rfl⟩
  rw [hs1] at hensured hsame ⊢
  dsimp only at hensured hsame ⊢
  have hmarked : SameTags s1 (s1.markClosing ref) :=
    sameTags_update ref (s1.objects ref).beginDelete rfl rfl rfl
  unfold SessionRouter.awaitDrained
  have hall := hsame.trans hmarked
  split
  · exact ⟨hensured.congr hmarked (Nat.le_refl _) hensured.sent, hall⟩
  · exact ⟨hensured.congr hmarked (Nat.le_refl _) hensured.sent, hall⟩

/-- A turn whose upstream request ends: its version replaces the session's tag, and is not older. -/
theorem finish (h : Fresh version s) {i : Nat} {result : Option HttpResponse} {writerRaises : Bool}
    (hallowed : s.Allowed (.finish i result writerRaises))
    (hupstream : s.Upstream version (.finish i result writerRaises))
    (horder : s.InOrder version (.finish i result writerRaises)) (hinv : Inv s) :
    Fresh version (s.resumeTurn i fun turn => s.finish turn result writerRaises) ∧
    ∀ ref, TagLe version (s.objects ref).versionTag
      ((s.resumeTurn i fun turn => s.finish turn result writerRaises).objects ref).versionTag := by
  obtain ⟨turn, hi, hphase⟩ := hallowed
  have hi : s.turns[i]? = some turn := hi
  have hmem := List.mem_of_getElem? hi
  obtain ⟨turnIndex, hphase⟩ : ∃ turnIndex, turn.phase = .upstream turnIndex := by
    cases hp : turn.phase <;> rw [hp] at hphase <;> first | exact ⟨_, rfl⟩ | cases hphase
  -- the turns keep what they were sent
  have hturns : ∀ how, ∀ t ∈ s.turns.set i { turn with phase := .ended how },
      ∀ w ∈ t.servedBefore, TagLe version (some w) t.sentTag := by
    intro how t ht
    obtain ht | rfl := List.mem_or_eq_of_mem_set ht
    · exact h.sent t ht
    · exact h.sent turn hmem
  unfold SessionRouter.resumeTurn SessionRouter.finish SessionRouter.finishTurn
  rw [hi]
  dsimp only
  rw [hphase]
  dsimp only
  by_cases hwriter : writerRaises = true
  · rw [if_pos hwriter]
    exact ⟨⟨h.served, hturns _, h.unused⟩, fun ref => .refl _⟩
  · rw [if_neg hwriter]
    dsimp only
    -- the new tag is the version that served the turn, if there is one
    obtain ⟨tag, htag⟩ : ∃ tag, (result.bind servedTag).or (s.objects turn.ref).versionTag = tag :=
      ⟨_, rfl⟩
    have hgrows : TagLe version (s.objects turn.ref).versionTag tag := by
      cases hserved : result.bind servedTag with
      | none =>
          rw [← htag, hserved]
          exact .refl _
      | some w =>
          rw [← htag, hserved]
          obtain ⟨result, rfl, hw⟩ := Option.bind_eq_some_iff.mp hserved
          intro v hv
          obtain ⟨v', hv', hle⟩ := horder turn hi v hv
          exact ⟨w, rfl, hle.trans (hupstream turn hi w hw v' hv')⟩
    have hobject : ((s.objects turn.ref).closeTurn turn.trajectoryId result).versionTag = tag := by
      rw [closeTurn_versionTag, htag]
    refine ⟨⟨fun ref w hw => ?_, hturns _, fun ref href => ?_⟩, fun ref => ?_⟩
    · simp only [Function.update_apply] at hw ⊢
      split at hw
      · rename_i href
        rw [if_pos href, hobject]
        obtain hw | hw := List.mem_append.mp hw
        · intro v hv
          obtain ⟨v', hv', hle⟩ := h.served turn.ref w hw v hv
          obtain ⟨v'', hv'', hle'⟩ := hgrows v' hv'
          exact ⟨v'', hv'', hle.trans hle'⟩
        · have hserved : result.bind servedTag = some w := by
            cases result with
            | none => exact absurd hw List.not_mem_nil
            | some result =>
                rw [Option.bind_some, servedTag]
                dsimp only at hw
                split at hw
                · rename_i hstatus
                  rw [if_pos hstatus]
                  exact Option.mem_toList.mp hw
                · exact absurd hw List.not_mem_nil
          rw [← htag, hserved]
          exact .refl _
      · rename_i href
        rw [if_neg href]
        exact h.served ref w hw
    · have hne : ref ≠ turn.ref := by
        have := hinv.turnRefs turn hmem
        rintro rfl
        exact absurd href (Nat.not_le_of_lt this)
      simp only [Function.update_of_ne hne]
      exact h.unused ref href
    · simp only [Function.update_apply]
      split
      · rename_i href
        rw [hobject, href]
        exact hgrows
      · exact .refl _

/-- Steps that leave the tags alone. -/
theorem same (h : Fresh version s' ∧ SameTags s s') :
    Fresh version s' ∧
      ∀ ref, TagLe version (s.objects ref).versionTag (s'.objects ref).versionTag :=
  ⟨h.1, fun ref => by rw [(h.2 ref).1]; exact .refl _⟩

theorem exec {a : Action} (h : Fresh version s) (hinv : Inv s) (hallowed : s.Allowed a)
    (hupstream : s.Upstream version a) (horder : s.InOrder version a) (hexec : s.exec a = .ok s') :
    Fresh version s' ∧
      ∀ ref, TagLe version (s.objects ref).versionTag (s'.objects ref).versionTag := by
  cases a with
  | chat sid trajectoryId request =>
      cases hexec
      obtain ⟨hensured, hsame⟩ := h.ensureState sid
      obtain ⟨hstarted, hsame'⟩ := hensured.startTurn
        (newTurn (s.ensureState sid).2.strategy sid (s.ensureState sid).1 trajectoryId request)
        fun w hw => absurd hw List.not_mem_nil
      exact same ⟨hstarted, hsame.trans hsame'⟩
  | wake i =>
      cases hexec
      exact same (h.resumeTurn fun turn hturn => h.enter (h.sent turn hturn))
  | readBody i =>
      cases hexec
      exact same (h.resumeTurn fun turn hturn => ⟨.refl s, rfl, rfl, h.sent turn hturn⟩)
  | finish i result writerRaises =>
      cases hexec
      exact h.finish hallowed hupstream horder hinv
  | abandon i =>
      cases hexec
      refine same (h.resumeTurn fun turn hturn => ?_)
      unfold SessionRouter.abandon
      cases turn.phase <;> exact ⟨.refl s, rfl, rfl, h.sent turn hturn⟩
  | delete sid =>
      cases hexec
      exact same (h.deleteSession sid)
  | drained i =>
      cases hexec
      unfold SessionRouter.sendDelete
      split
      · exact same ⟨h, .refl s⟩
      · exact same ⟨h.congr (.refl s) (Nat.le_refl _) h.sent, .refl s⟩
  | deleteAnswered i =>
      cases hexec
      unfold SessionRouter.endDelete
      split
      · exact same ⟨h, .refl s⟩
      · exact same ⟨h.congr (.refl s) (Nat.le_refl _) h.sent, .refl s⟩
  | hang sids =>
      cases hexec
      exact same (foldl (fun s sid hs => hs.hangSession sid) sids h)
  | continueSessions pins =>
      cases hexec
      exact same (foldl (fun s pin hs => hs.continueSession pin) pins.items h)

end Fresh

/-- In every run in which each turn that completes was sent a tag at least as fresh as the one its
session has at that moment: a session's tag never decreases, and a turn is sent a tag at least as
fresh as every version that had been served when it was admitted. -/
theorem version_tag_never_decreases {strategy : TrajectoryIdStrategy}
    (hreach : Run.Reachable exec
      (fun s a => s.Allowed a ∧ s.Upstream version a ∧ s.InOrder version a) (init strategy) s) :
    (∀ ref, ∀ w ∈ s.served ref, TagLe version (some w) (s.objects ref).versionTag) ∧
    (∀ turn ∈ s.turns, ∀ w ∈ turn.servedBefore, TagLe version (some w) turn.sentTag) ∧
    (∀ a s', s.Allowed a → s.Upstream version a → s.InOrder version a → s.exec a = .ok s' →
      ∀ ref, TagLe version (s.objects ref).versionTag (s'.objects ref).versionTag) := by
  have hinv := Inv.of_reachable (hreach.mono fun _ _ h => h.1)
  have h : Fresh version s := by
    have hboth := hreach.invariant (P := fun s => Inv s ∧ Fresh version s)
      ⟨Inv.init strategy, Fresh.init strategy⟩ fun s a s' hs ha hexec =>
        ⟨hs.1.exec ha.1 hexec, (hs.2.exec hs.1 ha.1 ha.2.1 ha.2.2 hexec).1⟩
    exact hboth.2
  exact ⟨h.served, h.sent, fun a s' hallowed hupstream horder hexec =>
    (h.exec hinv hallowed hupstream horder hexec).2⟩

/-- Turns one after the other. -/
theorem version_tag_never_decreases_in_sequence :
    ∃ s, Run.Reachable exec
      (fun s a => s.Allowed a ∧ s.Upstream String.length a ∧ s.InOrder String.length a)
      (init .manual) s ∧ (s.objects 0).versionTag = some "iii" ∧ s.served 0 = ["ii", "iii"] ∧
      ∀ w ∈ s.served 0, TagLe String.length (some w) (s.objects 0).versionTag := by
  obtain ⟨s, hreach, hs⟩ : ∃ s, Run.Reachable exec
      (fun s a => s.Allowed a ∧ s.Upstream String.length a ∧ s.InOrder String.length a)
      (init .manual) s ∧
      decide ((s.objects 0).versionTag = some "iii" ∧ s.served 0 = ["ii", "iii"]) = true :=
    Run.exists_reachable_of_perform (l := [.chat "a" 0 .empty, .readBody 0,
      .finish 0 (some (servedBy "ii")) false, .chat "a" 0 .empty, .readBody 1,
      .finish 1 (some (servedBy "iii")) false]) (by decide +kernel)
  obtain ⟨htag, hserved⟩ := of_decide_eq_true hs
  exact ⟨s, hreach, htag, hserved, (version_tag_never_decreases hreach).1 0⟩

/-- Two turns are admitted without a tag; the later one to complete was served by the older
version, and the third turn is sent that version. -/
theorem version_tag_decreases :
    ∃ s, Run.Reachable exec (fun s a => s.Allowed a ∧ s.Upstream String.length a) (init .manual) s ∧
      s.served 0 = ["iii", "ii"] ∧ (s.objects 0).versionTag = some "ii" ∧
      ∃ turn ∈ s.turns, "iii" ∈ turn.servedBefore ∧ turn.sentTag = some "ii" := by
  obtain ⟨s, hreach, hs⟩ : ∃ s, Run.Reachable exec
      (fun s a => s.Allowed a ∧ s.Upstream String.length a) (init .manual) s ∧
      decide (s.served 0 = ["iii", "ii"] ∧ (s.objects 0).versionTag = some "ii" ∧
        ∃ turn ∈ s.turns, "iii" ∈ turn.servedBefore ∧ turn.sentTag = some "ii") = true :=
    Run.exists_reachable_of_perform (l := [.chat "a" 0 .empty, .chat "a" 0 .empty, .readBody 0,
      .readBody 1, .finish 1 (some (servedBy "iii")) false, .finish 0 (some (servedBy "ii")) false,
      .chat "a" 0 .empty]) (by decide +kernel)
  exact ⟨s, hreach, of_decide_eq_true hs⟩

end SessionRouter

end Psrl
