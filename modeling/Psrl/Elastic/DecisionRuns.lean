import Psrl.Elastic.Decisions

/-!
# Psrl.Elastic.DecisionRuns

**Every decision is carried out** as long as no `SLEEP` or `WAKE_UP` command raises.

A step of a handler brings it closer to the end of its task or finishes the first of its tasks
(`Progress`), and all other steps only add tasks at the end of its queue (`Untouched`). So the place
of an action in the queue and the rank of the handler go down together until the action is marked
(`eventually_finished`). A handler whose loop has ended takes no task any more, and what is in
its queue stays there (`ended_reachable`).
-/

namespace Psrl

open Py

namespace DecisionLoops

variable {Role Usage : Type} {s s' : DecisionLoops Role} {side : Side} {id : Nat × Nat}

/-! ### The handlers -/

/-- What a handler has at hand. -/
structure AtHand (idle : Bool) (handler : ScaleHandler Role) : Prop where
  rest : idle = true → handler.current = none
  busy : handler.running = true → idle = false → handler.current ≠ none
  ended : handler.running = false → handler.current = none

/-- What a step of a handler does to it: it is closer to the end of the task at hand, or it has
finished the first of its tasks. -/
inductive Progress (s : DecisionLoops Role) (side : Side) (s' : DecisionLoops Role) : Prop
  | closer (tasks : (s'.handler side).tasks = (s.handler side).tasks)
      (rank : s'.loops.rank side < s.loops.rank side)
  | done (id : Nat × Nat) (tasks : (s.handler side).tasks = id :: (s'.handler side).tasks)
      (finished : id ∈ s'.finished)

/-- What a step leaves as it is for a handler. -/
structure Untouched (s : DecisionLoops Role) (side : Side) (s' : DecisionLoops Role) : Prop where
  tasks : ∃ more, (s'.handler side).tasks = (s.handler side).tasks ++ more
  running : (s'.handler side).running = (s.handler side).running
  rank : s'.loops.rank side = s.loops.rank side

theorem Grows.untouched (h : Grows s s') (side : Side) : Untouched s side s' := by
  obtain ⟨hcurrent, hrunning, more, hqueue⟩ := h.handler side
  refine ⟨⟨more.map (·.id), ?_⟩, hrunning, by rw [h.loops]⟩
  rw [ScaleHandler.tasks, ScaleHandler.tasks, hcurrent, hqueue, ← List.append_assoc,
    List.map_append]

/-- What the `finally` of a handler does. -/
structure Finished (s : DecisionLoops Role) (side : Side) (s' : DecisionLoops Role) : Prop where
  loops : s'.loops = s.loops
  other : ∀ side', side' ≠ side → s'.handler side' = s.handler side'
  queue : (s'.handler side).queue = (s.handler side).queue
  running : (s'.handler side).running = (s.handler side).running
  current : (s'.handler side).current = none
  finished : ∀ id ∈ s.finished, id ∈ s'.finished
  marked : ∀ queued ∈ (s.handler side).current, queued.id ∈ s'.finished

theorem finish_finished (s : DecisionLoops Role) (side : Side) :
    Finished s side (s.finish side) := by
  unfold finish
  dsimp only
  cases hcurrent : (s.handler side).current with
  | none =>
      refine ⟨rfl, fun _ _ => rfl, rfl, rfl, hcurrent, fun _ hid => hid, fun queued hqueued => ?_⟩
      rw [hcurrent] at hqueued
      cases hqueued
  | some queued =>
      dsimp only
      generalize hs₁ :
        s.setHandler side ⟨(s.handler side).queue, none, (s.handler side).running⟩ = s₁
      have hown : s₁.handler side = ⟨(s.handler side).queue, none, (s.handler side).running⟩ := by
        rw [← hs₁, handler_setHandler, if_pos rfl]
      have hmarked := marked s₁ queued.id
      have hloops : s₁.loops = s.loops := by rw [← hs₁]; rfl
      have hfinished : s₁.finished = s.finished := by rw [← hs₁]; rfl
      refine ⟨hmarked.loops.trans hloops, fun side' hother => ?_, ?_, ?_, ?_, fun id hid => ?_,
        fun queued' hqueued => ?_⟩
      · rw [hmarked.handler, ← hs₁, handler_setHandler, if_neg hother]
      · rw [hmarked.handler, hown]
      · rw [hmarked.handler, hown]
      · rw [hmarked.handler, hown]
      · rw [hmarked.finished, hfinished]
        exact List.mem_append_left _ hid
      · rw [hcurrent] at hqueued
        cases hqueued
        rw [hmarked.finished]
        exact List.mem_append_right _ (List.mem_singleton_self _)

/-- A handler with a task at hand is done with it, or closer to its end. -/
theorem settle_progress {s₁ : DecisionLoops Role} {queued : QueuedTask Role}
    (htasks : (s₁.handler side).tasks = (s.handler side).tasks)
    (hcurrent : (s₁.handler side).current = some queued)
    (hphase : s₁.loops.idle side = true ∨ s₁.loops.rank side < s.loops.rank side) :
    Progress s side (s₁.settle side) := by
  unfold settle
  split
  · have hfinished := finish_finished s₁ side
    refine .done queued.id ?_ (hfinished.marked queued hcurrent)
    rw [← htasks, ScaleHandler.tasks, ScaleHandler.tasks, hcurrent, hfinished.current,
      hfinished.queue]
    rfl
  · rename_i hbusy
    exact .closer htasks (hphase.resolve_left hbusy)

/-- What settling leaves as it is. -/
theorem settle_keeps (s : DecisionLoops Role) (side : Side) :
    (s.settle side).loops = s.loops ∧
    (∀ side', side' ≠ side → (s.settle side).handler side' = s.handler side') ∧
    ((s.settle side).handler side).running = (s.handler side).running ∧
    ((s.settle side).handler side).queue = (s.handler side).queue ∧
    (∀ id ∈ s.finished, id ∈ (s.settle side).finished) := by
  unfold settle
  split
  · have hfinished := finish_finished s side
    exact ⟨hfinished.loops, hfinished.other, hfinished.running, hfinished.queue, hfinished.finished⟩
  · exact ⟨rfl, fun _ _ => rfl, rfl, rfl, fun _ hid => hid⟩

/-- What an exception does, which ends the loop of the handler or finds it ended. -/
structure Failed (s : DecisionLoops Role) (side : Side) (s' : DecisionLoops Role) : Prop where
  loops : s'.loops = s.loops
  other : ∀ side', side' ≠ side → s'.handler side' = s.handler side'
  queue : (s'.handler side).queue = (s.handler side).queue
  running : (s'.handler side).running = false
  current : (s'.handler side).current = none
  finished : ∀ id ∈ s.finished, id ∈ s'.finished

theorem fail_failed (hended : (s.handler side).running = false → (s.handler side).current = none) :
    Failed s side (s.fail side) := by
  unfold fail
  split
  · have hdone := finish_finished s side
    refine ⟨hdone.loops, fun side' hne => ?_, ?_, ?_, ?_, hdone.finished⟩
    · exact (handler_setHandler _ _).trans ((if_neg hne).trans (hdone.other side' hne))
    all_goals dsimp only; rw [handler_setHandler, if_pos rfl]
    · exact hdone.queue
    · exact hdone.current
  · rename_i hrunning
    have hrunning := Bool.eq_false_iff.mpr hrunning
    exact ⟨rfl, fun _ _ => rfl, rfl, hrunning, hended hrunning, fun _ hid => hid⟩

theorem Books.fail (h : Books s) (side : Side) : Books (s.fail side) := by
  unfold DecisionLoops.fail
  split
  · refine (h.finish side).moved ⟨rfl, rfl, rfl, rfl, rfl⟩ ?_
    exact @waiting_setHandler _ (s.finish side) side _ [] (List.Perm.refl _)
  · exact h

theorem Books.withLoops (h : Books s) (loops : ElasticLoops Role) :
    Books { s with loops := loops } :=
  h.moved ⟨rfl, rfl, rfl, rfl, rfl⟩ (List.Perm.refl _)

/-- After settling, a handler that has nothing to do has nothing at hand. -/
theorem settle_atHand (hbusy : (s.handler side).running = true → (s.handler side).current ≠ none)
    (hended : (s.handler side).running = false → (s.handler side).current = none) :
    AtHand ((s.settle side).loops.idle side) ((s.settle side).handler side) := by
  unfold settle
  split
  · rename_i hidle
    have hfinished := finish_finished s side
    refine ⟨fun _ => hfinished.current, fun _ hnot => ?_, fun _ => hfinished.current⟩
    rw [hfinished.loops, hidle] at hnot
    cases hnot
  · rename_i hidle
    exact ⟨fun h => absurd h hidle, fun hrun _ => hbusy hrun, hended⟩

theorem Books.settle (h : Books s) (side : Side) : Books (s.settle side) := by
  unfold DecisionLoops.settle
  split
  · exact h.finish side
  · exact h

theorem allowed_busy {loops : ElasticLoops Role} {a : ElasticLoops.Action Role Usage}
    (hallowed : loops.Allowed a) (htake : ElasticLoops.isTake a = false) :
    loops.idle (ElasticLoops.sideOf a) = false := by
  cases a with
  | takeUp usage task => cases htake
  | takeDown usage task => cases htake
  | _ =>
      dsimp only [ElasticLoops.Allowed] at hallowed
      split at hallowed
      · rename_i hphase
        dsimp only [ElasticLoops.sideOf, ElasticLoops.idle]
        rw [hphase]
      · exact hallowed.elim

/-- The head of the queue is the task at hand. -/
theorem tasks_take {queued : QueuedTask Role} {rest : List (QueuedTask Role)}
    (hnone : (s.handler side).current = none) (hqueue : (s.handler side).queue = queued :: rest) :
    ScaleHandler.tasks ⟨rest, some queued, (s.handler side).running⟩ = (s.handler side).tasks := by
  rw [ScaleHandler.tasks, ScaleHandler.tasks, hnone, hqueue]
  rfl

/-- A handler that was not looked at. -/
theorem untouched_of_same (hhandler : s'.handler side = s.handler side)
    (hphase : ElasticLoops.SamePhase s.loops s'.loops side) : Untouched s side s' :=
  ⟨⟨[], by rw [hhandler, List.append_nil]⟩, by rw [hhandler], hphase.rank⟩

theorem mem_waiting_of_tasks (hmem : id ∈ (s.handler side).tasks) : id ∈ s.waiting := by
  cases side with
  | up => exact List.mem_append_left _ hmem
  | down => exact List.mem_append_right _ hmem

/-- An action in a queue is not finished. -/
theorem Books.not_finished (h : Books s) (hmem : id ∈ s.waiting) : id ∉ s.finished :=
  fun hin => (List.nodup_append.mp h.unique).2.2 id hin id hmem rfl

/-- When all actions are finished, no decision is in progress. -/
theorem Books.not_inProgress (h : Books s) (hall : ∀ id ∈ s.accepted, id ∈ s.finished) :
    s.decisionExecutionInProgress = false := by
  have hnone : s.waiting = [] := by
    rw [List.eq_nil_iff_forall_not_mem]
    intro id hid
    exact h.not_finished hid (hall id ((h.located id).mpr (List.mem_append_right _ hid)))
  rw [Bool.eq_false_iff]
  refine fun hflag => h.flag.mp hflag ?_
  rw [List.eq_nil_iff_forall_not_mem]
  rintro ⟨d, n⟩ hitem
  obtain ⟨hcount, hpos⟩ := h.counts d n (Dict.get?_eq_some_iff.mpr hitem)
  rw [unfinished, hnone] at hcount
  rw [hcount] at hpos
  exact lt_irrefl _ hpos

/-- With nothing at hand and nothing in its queue a handler makes no step. -/
theorem no_step (hidle : s.loops.idle side = true) (hqueue : (s.handler side).queue = []) :
    ¬ ∃ a : Action Role Usage, s.Allowed a ∧ ¬ Raises a ∧ OfSide side a := by
  rintro ⟨a, hallowed, hraise, hside⟩
  cases a with
  | accept actions => exact hside
  | abandon => exact hside
  | raised side i => exact hraise trivial
  | take side' usage =>
      cases hside
      exact hallowed.2.2 hqueue
  | step a =>
      cases hside
      have hbusy := allowed_busy hallowed.1 hallowed.2.1
      rw [hidle] at hbusy
      cases hbusy

/-! ### Steps -/

variable [DecidableEq Role] {a : Action Role Usage}

structure Inv (s : DecisionLoops Role) : Prop where
  loops : ElasticLoops.Inv s.loops
  books : Books s
  atHand : ∀ side, AtHand (s.loops.idle side) (s.handler side)

theorem Inv.start {e : ElasticExecutor Role} (h : ElasticLoops.Inv (ElasticLoops.start e)) :
    Inv (start e) where
  loops := h
  books := by
    refine ⟨iff_of_false Bool.false_ne_true fun hne => hne rfl, fun d n hd => ?_,
      fun id hid => absurd hid List.not_mem_nil, List.nodup_nil, fun id => Iff.rfl⟩
    cases hd
  atHand side := by
    refine ⟨fun _ => rfl, fun _ hidle => ?_, fun _ => rfl⟩
    cases side <;> cases hidle

theorem Inv.of_grows (h : Inv s) (hgrows : Grows s s') (hbooks : Books s') : Inv s' := by
  refine ⟨hgrows.loops ▸ h.loops, hbooks, fun side => ?_⟩
  obtain ⟨hcurrent, hrunning, -⟩ := hgrows.handler side
  have hold := h.atHand side
  rw [hgrows.loops]
  exact ⟨fun hidle => hcurrent.trans (hold.rest hidle),
    fun hrun hidle => hcurrent ▸ hold.busy (hrunning ▸ hrun) hidle,
    fun hrun => hcurrent.trans (hold.ended (hrunning ▸ hrun))⟩

/-- What a step does, for both handlers. -/
structure Stepped (s : DecisionLoops Role) (a : Action Role Usage) (s' : DecisionLoops Role) :
    Prop where
  inv : Inv s'
  finished : ∀ id ∈ s.finished, id ∈ s'.finished
  running : ∀ side, ¬ Raises a → (s'.handler side).running = (s.handler side).running
  own : ∀ side, OfSide side a → ¬ Raises a → (s.handler side).running = true → Progress s side s'
  other : ∀ side, ¬ OfSide side a → Untouched s side s'
  ended : ∀ side, (s.handler side).running = false →
    (s'.handler side).running = false ∧ ∃ more, (s'.handler side).tasks =
      (s.handler side).tasks ++ more

theorem Stepped.of_grows (h : Inv s) (hgrows : Grows s s') (hbooks : Books s')
    (hside : ∀ side, ¬ OfSide side a) : Stepped s a s' where
  inv := h.of_grows hgrows hbooks
  finished := hgrows.finished
  running side _ := (hgrows.untouched side).running
  own side hown := absurd hown (hside side)
  other side _ := hgrows.untouched side
  ended side hended :=
    ⟨(hgrows.untouched side).running.trans hended, (hgrows.untouched side).tasks⟩

theorem Stepped.abandon (h : Inv s) : Stepped s (.abandon : Action Role Usage)
    s.abandonInFlightDecision := by
  refine .of_grows h ?_ h.books.abandon fun _ hside => hside
  unfold abandonInFlightDecision
  split
  · exact .refl s
  · exact ⟨rfl, fun _ => ⟨rfl, rfl, [], (List.append_nil _).symm⟩, fun _ hid => hid⟩

variable [LinearOrder Usage]

theorem ElasticLoops.Inv.take {loops : ElasticLoops Role} (h : ElasticLoops.Inv loops) (side : Side)
    (usage : InstanceIdentifier Role → Usage) (task : ScaleTask Role) :
    ElasticLoops.Inv (loops.take side usage task) := by
  cases side with
  | up => exact h.takeUp usage task
  | down => exact h.takeDown usage task

/-- A handler takes the first task of its queue. -/
theorem Stepped.take (h : Inv s) {usage : InstanceIdentifier Role → Usage}
    (hallowed : s.Allowed (.take side usage)) :
    ∃ s', exec s (.take side usage) = .ok s' ∧ Stepped s (.take side usage) s' := by
  obtain ⟨hrunning, hidle, hne⟩ := hallowed
  obtain ⟨queued, rest, hqueue⟩ := List.exists_cons_of_ne_nil hne
  have hnone := (h.atHand side).rest hidle
  have htasks := tasks_take hnone hqueue
  obtain ⟨hphase, hother⟩ := ElasticLoops.take_phase hidle usage queued.task
  generalize hs₁ : ({ s.setHandler side ⟨rest, some queued, (s.handler side).running⟩ with
    loops := s.loops.take side usage queued.task } : DecisionLoops Role) = s₁
  have hexec : exec s (.take side usage) = .ok (s₁.settle side) := by
    rw [exec]
    dsimp only
    rw [hqueue, ← hs₁]
    rfl
  have hown : s₁.handler side = ⟨rest, some queued, (s.handler side).running⟩ := by
    rw [← hs₁]
    exact (handler_setHandler _ _).trans (if_pos rfl)
  have hhandler : ∀ side', side' ≠ side → s₁.handler side' = s.handler side' := by
    intro side' hne
    rw [← hs₁]
    exact (handler_setHandler _ _).trans (if_neg hne)
  have hloops : s₁.loops = s.loops.take side usage queued.task := by rw [← hs₁]
  have hfinished : s₁.finished = s.finished := by rw [← hs₁]; rfl
  have hbooks : Books s₁ := by
    refine h.books.moved (by rw [← hs₁]; exact ⟨rfl, rfl, rfl, rfl, rfl⟩) ?_
    rw [← hs₁]
    refine @waiting_setHandler _ s side _ [] ?_
    rw [htasks]
    exact List.Perm.refl _
  obtain ⟨hsame, hothers, hrun, -, hgrow⟩ := settle_keeps s₁ side
  have hprogress : Progress s side (s₁.settle side) :=
    settle_progress (by rw [hown, htasks]) (by rw [hown]) (by rw [hloops]; exact hphase)
  have huntouched : ∀ side', side' ≠ side → Untouched s side' (s₁.settle side) := by
    intro side' hne
    refine untouched_of_same ((hothers side' hne).trans (hhandler side' hne)) ?_
    rw [hsame, hloops]
    exact hother side' hne
  have hrunnings : ∀ side', ((s₁.settle side).handler side').running =
      (s.handler side').running := by
    intro side'
    by_cases heq : side' = side
    · rw [heq, hrun, hown]
    · rw [hothers side' heq, hhandler side' heq]
  refine ⟨_, hexec, ⟨?_, hbooks.settle side, fun side' => ?_⟩, fun id hid => ?_,
    fun side' _ => hrunnings side', fun side' hside _ _ => ?_, fun side' hside => ?_,
    fun side' hended => ?_⟩
  · rw [hsame, hloops]
    exact ElasticLoops.Inv.take h.loops side usage queued.task
  · by_cases heq : side' = side
    · subst heq
      refine settle_atHand (fun _ hcurrent => ?_) fun hended => ?_
      · rw [hown] at hcurrent
        cases hcurrent
      · rw [hown] at hended
        have hended : (s.handler side').running = false := hended
        rw [hrunning] at hended
        cases hended
    · rw [hothers side' heq, hhandler side' heq, hsame, hloops, (hother side' heq).idle]
      exact h.atHand side'
  · exact hgrow id (hfinished ▸ hid)
  · have hside : side = side' := hside
    exact hside ▸ hprogress
  · exact huntouched side' fun heq => hside heq.symm
  · have hne : side' ≠ side := by
      rintro rfl
      rw [hrunning] at hended
      cases hended
    exact ⟨(hrunnings side').trans hended, (huntouched side' hne).tasks⟩

/-- The loop of a handler or one of its commands goes on. -/
theorem Stepped.step (h : Inv s) {a : ElasticLoops.Action Role Usage}
    (hallowed : s.Allowed (.step a)) :
    ∃ s', exec s (.step a) = .ok s' ∧ Stepped s (.step a) s' := by
  obtain ⟨hloop, htake, -⟩ := hallowed
  obtain ⟨loops', hexecLoops, hinv⟩ := h.loops.exec a
  obtain ⟨hphase, hother⟩ := ElasticLoops.exec_phase hloop htake hexecLoops
  have hbusy := allowed_busy hloop htake
  generalize hside : ElasticLoops.sideOf a = side at hphase hother hbusy
  generalize hs₁ : ({ s with loops := loops' } : DecisionLoops Role) = s₁
  have hexec : exec s (.step a) = .ok (s₁.settle side) := by
    rw [exec, hexecLoops, ok_bind, hs₁, hside]
    rfl
  have hhandler : s₁.handler = s.handler := by rw [← hs₁]
  have hloops : s₁.loops = loops' := by rw [← hs₁]
  have hfinished : s₁.finished = s.finished := by rw [← hs₁]
  have hbooks : Books s₁ := hs₁ ▸ h.books.withLoops loops'
  obtain ⟨hsame, hothers, hrun, hqueue, hgrow⟩ := settle_keeps s₁ side
  have hrunnings : ∀ side', ((s₁.settle side).handler side').running =
      (s.handler side').running := by
    intro side'
    by_cases heq : side' = side
    · rw [heq, hrun, hhandler]
    · rw [hothers side' heq, hhandler]
  have huntouched : ∀ side', side' ≠ side → Untouched s side' (s₁.settle side) := by
    intro side' hne
    refine untouched_of_same ((hothers side' hne).trans (by rw [hhandler])) ?_
    rw [hsame, hloops]
    exact hother side' hne
  have hatHand : AtHand ((s₁.settle side).loops.idle side) ((s₁.settle side).handler side) := by
    refine settle_atHand (fun hrunning => ?_) fun hended => ?_
    · rw [hhandler] at hrunning ⊢
      exact (h.atHand side).busy hrunning hbusy
    · rw [hhandler] at hended ⊢
      exact (h.atHand side).ended hended
  refine ⟨_, hexec, ⟨?_, hbooks.settle side, fun side' => ?_⟩, fun id hid => ?_,
    fun side' _ => hrunnings side', fun side' hown _ hrunning => ?_, fun side' hnot => ?_,
    fun side' hended => ?_⟩
  · rw [hsame, hloops]
    exact hinv
  · by_cases heq : side' = side
    · exact heq ▸ hatHand
    · rw [hothers side' heq, hhandler, hsame, hloops, (hother side' heq).idle]
      exact h.atHand side'
  · exact hgrow id (hfinished ▸ hid)
  · have hown : side = side' := hside ▸ hown
    subst hown
    obtain ⟨queued, hqueued⟩ := Option.ne_none_iff_exists'.mp ((h.atHand side).busy hrunning hbusy)
    exact settle_progress (by rw [hhandler]) (by rw [hhandler]; exact hqueued)
      (by rw [hloops]; exact hphase)
  · exact huntouched side' fun heq => hnot (hside.trans heq.symm)
  · refine ⟨(hrunnings side').trans hended, ?_⟩
    by_cases heq : side' = side
    · subst heq
      have hnone := (h.atHand side').ended hended
      have hnone' := hatHand.ended ((hrunnings side').trans hended)
      refine ⟨[], ?_⟩
      rw [ScaleHandler.tasks, ScaleHandler.tasks, hnone, hnone', hqueue, hhandler, List.append_nil]
    · exact (huntouched side' heq).tasks

/-- A command raises. -/
theorem Stepped.raised (h : Inv s) {i : Nat}
    (hallowed : s.Allowed (.raised side i : Action Role Usage)) :
    ∃ s', exec s (.raised side i : Action Role Usage) = .ok s' ∧
      Stepped s (.raised side i : Action Role Usage) s' ∧ (s'.handler side).running = false := by
  have hloop : s.loops.Allowed (unanswered s.loops side i : ElasticLoops.Action Role Usage) :=
    hallowed
  have hunanswered :
      ElasticLoops.isTake (unanswered s.loops side i : ElasticLoops.Action Role Usage) = false ∧
      ElasticLoops.sideOf (unanswered s.loops side i : ElasticLoops.Action Role Usage) = side := by
    unfold unanswered
    split <;> exact ⟨rfl, rfl⟩
  obtain ⟨loops', hexecLoops, hinv⟩ := h.loops.exec
    (unanswered s.loops side i : ElasticLoops.Action Role Usage)
  obtain ⟨-, hother⟩ := ElasticLoops.exec_phase hloop hunanswered.1 hexecLoops
  rw [hunanswered.2] at hother
  -- the loop ends with nothing at hand; nothing changes if it had ended before
  have hfailed := fail_failed (s := { s with loops := loops' }) (h.atHand side).ended
  have hbooks := (h.books.withLoops loops').fail side
  have hexec : exec s (.raised side i : Action Role Usage) =
      .ok (fail { s with loops := loops' } side) := by
    rw [exec, hexecLoops, ok_bind]
    rfl
  generalize fail { s with loops := loops' } side = s' at hfailed hbooks hexec
  have huntouched : ∀ side', side' ≠ side → Untouched s side' s' := fun side' hne =>
    untouched_of_same (hfailed.other side' hne) (hfailed.loops ▸ hother side' hne)
  refine ⟨s', hexec, ⟨⟨hfailed.loops ▸ hinv, hbooks, fun side' => ?_⟩, hfailed.finished,
    fun _ hnot => absurd trivial hnot, fun _ _ hnot => absurd trivial hnot,
    fun side' hnot => huntouched side' fun heq => hnot heq.symm, fun side' hended => ?_⟩,
    hfailed.running⟩
  · by_cases heq : side' = side
    · subst heq
      refine ⟨fun _ => hfailed.current, fun hrunning => ?_, fun _ => hfailed.current⟩
      rw [hfailed.running] at hrunning
      cases hrunning
    · rw [hfailed.other side' heq, hfailed.loops, (hother side' heq).idle]
      exact h.atHand side'
  · by_cases heq : side' = side
    · subst heq
      refine ⟨hfailed.running, [], ?_⟩
      rw [ScaleHandler.tasks, ScaleHandler.tasks, hfailed.current, (h.atHand side').ended hended,
        hfailed.queue, List.append_nil]
    · rw [hfailed.other side' heq]
      exact ⟨hended, [], (List.append_nil _).symm⟩

/-- Every step returns. -/
theorem Inv.exec (h : Inv s) (hallowed : s.Allowed a) :
    ∃ s', DecisionLoops.exec s a = .ok s' ∧ Stepped s a s' := by
  cases a with
  | accept actions =>
      obtain ⟨hbooks, hgrows⟩ := h.books.accept actions
      exact ⟨_, rfl, .of_grows h hgrows hbooks fun _ hside => hside⟩
  | abandon => exact ⟨_, rfl, .abandon h⟩
  | take side usage => exact Stepped.take h hallowed
  | step a => exact Stepped.step h hallowed
  | raised side i =>
      obtain ⟨s', hexec, hstepped, -⟩ := Stepped.raised h hallowed
      exact ⟨s', hexec, hstepped⟩

theorem stepped (h : Inv s) (hallowed : s.Allowed a) (hexec : exec s a = .ok s') :
    Stepped s a s' := by
  obtain ⟨s₁, hexec₁, hstepped⟩ := h.exec hallowed
  rw [hexec] at hexec₁
  cases hexec₁
  exact hstepped

/-! ### Runs -/

/-- A handler whose loop runs can go on as long as it has tasks. -/
theorem exists_step [Inhabited Usage] (h : Inv s) (hrunning : (s.handler side).running = true)
    (hmem : id ∈ (s.handler side).tasks) :
    ∃ a : Action Role Usage, s.Allowed a ∧ ¬ Raises a ∧ OfSide side a := by
  by_cases hidle : s.loops.idle side = true
  · refine ⟨.take side fun _ => default, ⟨hrunning, hidle, fun hnil => ?_⟩, fun hraise => hraise,
      rfl⟩
    rw [ScaleHandler.tasks, (h.atHand side).rest hidle, hnil] at hmem
    cases hmem
  · obtain ⟨a, hallowed, htake, hside⟩ :=
      ElasticLoops.exists_allowed Usage (Bool.eq_false_iff.mpr hidle)
    exact ⟨.step a, ⟨hallowed, htake, fun _ => hside ▸ hrunning⟩, fun hraise => hraise, hside⟩

/-- How far an action is from the end: its place in the queue, and the rest of the task at hand. -/
def rankOf (side : Side) (id : Nat × Nat) (s : DecisionLoops Role) : ℕ ×ₗ (ℕ ×ₗ ℕ) :=
  toLex ((s.handler side).tasks.idxOf id, s.loops.rank side)

/-- An action in a queue is marked finished in the end. -/
theorem eventually_finished [Inhabited Usage] {init : DecisionLoops Role}
    {t : Run.Trace exec (fun (s : DecisionLoops Role) (a : Action Role Usage) =>
      s.Allowed a ∧ ¬ Raises a) init}
    (hfair : t.Fair (fun s => ∃ a : Action Role Usage, s.Allowed a ∧ ¬ Raises a ∧ OfSide side a)
      (OfSide side)) {n : Nat} (hinv : Inv (t.state n))
    (hrunning : ((t.state n).handler side).running = true)
    (hmem : id ∈ ((t.state n).handler side).tasks) : ∃ k ≥ n, id ∈ (t.state k).finished := by
  refine @Run.Trace.Fair.eventually _ _ _ _ _ _ t _ _ hfair _ _ _ (rankOf side id)
    (fun s => Inv s ∧ (s.handler side).running = true ∧ id ∈ (s.handler side).tasks)
    (fun s => id ∈ s.finished) ?_ ?_ n ⟨hinv, hrunning, hmem⟩
  · rintro s a s' ⟨hinv, hrunning, hmem⟩ - ⟨hallowed, hraise⟩ hexec hnot
    have hstep := stepped hinv hallowed hexec
    have hrunning' := (hstep.running side hraise).trans hrunning
    by_cases hside : OfSide side a
    · cases hstep.own side hside hraise hrunning with
      | closer htasks hrank =>
          have hlt : rankOf side id s' < rankOf side id s :=
            Prod.Lex.toLex_lt_toLex.mpr (.inr ⟨by rw [htasks], hrank⟩)
          exact ⟨⟨hstep.inv, hrunning', htasks ▸ hmem⟩, hlt.le, fun _ => hlt⟩
      | done id' htasks hdone =>
          have hne : id' ≠ id := by
            rintro rfl
            exact hnot hdone
          rw [htasks, List.mem_cons] at hmem
          have hlt : rankOf side id s' < rankOf side id s := by
            refine Prod.Lex.toLex_lt_toLex.mpr (.inl ?_)
            rw [htasks, List.idxOf_cons_ne _ hne]
            exact Nat.lt_succ_self _
          exact ⟨⟨hstep.inv, hrunning', hmem.resolve_left fun heq => hne heq.symm⟩, hlt.le,
            fun _ => hlt⟩
    · obtain ⟨⟨more, htasks⟩, -, hrank⟩ := hstep.other side hside
      refine ⟨⟨hstep.inv, hrunning', ?_⟩, ?_, fun hown => absurd hown hside⟩
      · rw [htasks]
        exact List.mem_append_left _ hmem
      · rw [rankOf, rankOf, htasks, List.idxOf_append_of_mem hmem, hrank]
  · rintro s ⟨hinv, hrunning, hmem⟩ -
    exact exists_step hinv hrunning hmem

/-- What is in the queue of a handler whose loop has ended stays there. -/
theorem ended_reachable (h : Inv s) (hended : (s.handler side).running = false)
    (hreach : Run.Reachable exec (Allowed : DecisionLoops Role → Action Role Usage → Prop) s s') :
    Inv s' ∧ (s'.handler side).running = false ∧
      ∀ id ∈ (s.handler side).tasks, id ∈ (s'.handler side).tasks := by
  refine hreach.invariant (P := fun s' => Inv s' ∧ (s'.handler side).running = false ∧
    ∀ id ∈ (s.handler side).tasks, id ∈ (s'.handler side).tasks) ⟨h, hended, fun _ hid => hid⟩ ?_
  rintro s₁ a s₂ ⟨hinv, hended, htasks⟩ hallowed hexec
  have hstep := stepped hinv hallowed hexec
  obtain ⟨hended', more, hmore⟩ := hstep.ended side hended
  refine ⟨hstep.inv, hended', fun id hid => ?_⟩
  rw [hmore]
  exact List.mem_append_left _ (htasks id hid)

open ElasticExecutor in
/-- **Decisions finish.** In a fair run where no `SLEEP` or `WAKE_UP` command raises, both handler
loops keep running and every action of every accepted decision is marked finished. In any run the
flag says whether a decision is in progress, and no step of the handlers fails by itself. A command
that raises ends its handler's loop: what is in its queue, or put there later, is never executed. -/
theorem decisions_finish [Inhabited Usage] {order : SetOrder GPUSlot} {roles : List (Role × String)}
    {minAwakePerRole : Nat} {e : ElasticExecutor Role}
    (hsetup : Run.Reachable (setup order) (fun _ _ => True) (new roles minAwakePerRole) e) :
    (∀ t : Run.Trace exec (fun (s : DecisionLoops Role) (a : Action Role Usage) =>
        s.Allowed a ∧ ¬ Raises a) (start e),
      (∀ side, t.Fair (fun s => ∃ a : Action Role Usage, s.Allowed a ∧ ¬ Raises a ∧ OfSide side a)
        (OfSide side)) →
      ∀ n, (∀ side, ((t.state n).handler side).running = true) ∧
        ∀ id ∈ (t.state n).accepted, ∃ k ≥ n, id ∈ (t.state k).finished) ∧
    (∀ s, Run.Reachable exec (Allowed : DecisionLoops Role → Action Role Usage → Prop) (start e) s →
      (s.decisionExecutionInProgress = true ↔ s.decisionPendingActionCounts.items ≠ []) ∧
      ((∀ id ∈ s.accepted, id ∈ s.finished) → s.decisionExecutionInProgress = false) ∧
      (∀ a : Action Role Usage, s.Allowed a → ∃ s', exec s a = .ok s') ∧
      ∀ side i s₁, s.Allowed (.raised side i : Action Role Usage) →
        exec s (.raised side i : Action Role Usage) = .ok s₁ →
        ∀ s₂, Run.Reachable exec (Allowed : DecisionLoops Role → Action Role Usage → Prop) s₁ s₂ →
          (s₂.handler side).running = false ∧
          ∀ id ∈ (s₂.handler side).tasks, ∀ s₃,
            Run.Reachable exec (Allowed : DecisionLoops Role → Action Role Usage → Prop) s₂ s₃ →
              id ∉ s₃.finished) := by
  have hstart : Inv (start e) := .start (ElasticLoops.Inv.of_reachable hsetup
    (.start : Run.Reachable ElasticLoops.exec
      (ElasticLoops.Allowed : ElasticLoops Role → ElasticLoops.Action Role Usage → Prop) _ _))
  have hinv : ∀ s, Run.Reachable exec (Allowed : DecisionLoops Role → Action Role Usage → Prop)
      (start e) s → Inv s := fun s hreach =>
    hreach.invariant hstart fun _ _ _ hs hallowed hexec => (stepped hs hallowed hexec).inv
  refine ⟨fun t hfair n => ?_, fun s hreach => ?_⟩
  · have hrunning : Inv (t.state n) ∧ ∀ side, ((t.state n).handler side).running = true := by
      refine (t.reachable n).invariant
        (P := fun s => Inv s ∧ ∀ side, (s.handler side).running = true)
        ⟨hstart, fun _ => rfl⟩ ?_
      rintro s a s' ⟨hs, hrun⟩ ⟨hallowed, hraise⟩ hexec
      have hstep := stepped hs hallowed hexec
      exact ⟨hstep.inv, fun side => (hstep.running side hraise).trans (hrun side)⟩
    refine ⟨hrunning.2, fun id hid => ?_⟩
    rcases List.mem_append.mp ((hrunning.1.books.located id).mp hid) with hdone | hwaiting
    · exact ⟨n, le_refl n, hdone⟩
    · rcases List.mem_append.mp hwaiting with hup | hdown
      · exact eventually_finished (hfair .up) hrunning.1 (hrunning.2 .up) hup
      · exact eventually_finished (hfair .down) hrunning.1 (hrunning.2 .down) hdown
  · have hs := hinv s hreach
    refine ⟨hs.books.flag, hs.books.not_inProgress, fun a hallowed => ?_,
      fun side i s₁ hallowed hexec s₂ hreach₂ => ?_⟩
    · obtain ⟨s', hexec, -⟩ := hs.exec hallowed
      exact ⟨s', hexec⟩
    · obtain ⟨s', hexec', hstep, hended⟩ := Stepped.raised hs hallowed
      rw [hexec] at hexec'
      cases hexec'
      obtain ⟨hinv₂, hended₂, -⟩ := ended_reachable hstep.inv hended hreach₂
      refine ⟨hended₂, fun id hid s₃ hreach₃ => ?_⟩
      obtain ⟨hinv₃, -, htasks⟩ := ended_reachable hinv₂ hended₂ hreach₃
      exact hinv₃.books.not_finished (mem_waiting_of_tasks (htasks id hid))

instance (s : DecisionLoops Role) (a : Action Role Usage) : Decidable (s.Allowed a) := by
  cases a <;> unfold Allowed <;> infer_instance

instance (a : Action Role Usage) : Decidable (Raises a) := by
  cases a <;> unfold Raises <;> infer_instance

/-- A role with two awake instances. -/
def twoInstances : List (ElasticExecutor.SetupAction Bool) :=
  [.register (false, "m") [("a", 0), ("a", 1)] [{(none, 0)}, {(none, 1)}], .select (false, "m") 2 2]

/-- One instance of the role is to be put to sleep. -/
def scaleDownOne : ScalingAction Bool := ⟨.scaleDown, ⟨false, "m", 1, []⟩⟩

/-- The handler takes the task and sends `SLEEP`. -/
def sleepSentDown : List (Action Bool Nat) :=
  [.accept [scaleDownOne], .take .down fun _ => 0, .step (.startSleepDown 0 false)]

open ElasticExecutor in
/-- A decision whose command is answered. -/
theorem decisions_finish_answered :
    ∃ (e : ElasticExecutor Bool) (t : Run.Trace exec (fun (s : DecisionLoops Bool)
        (a : Action Bool Nat) => s.Allowed a ∧ ¬ Raises a) (start e)) (n : Nat),
      Run.Reachable (setup ElasticLoops.slotOrder) (fun _ _ => True) (new [(false, "m")] 1) e ∧
      (1, 0) ∈ (t.state n).accepted ∧ ∃ k ≥ n, (1, 0) ∈ (t.state k).finished := by
  have h : ((Run.perform (setup ElasticLoops.slotOrder) (fun _ _ => True) (new [(false, "m")] 1)
      twoInstances).bind fun e => (Run.perform exec (fun (s : DecisionLoops Bool)
        (a : Action Bool Nat) => s.Allowed a ∧ ¬ Raises a) (start e)
        (sleepSentDown ++ [.step (.replySleepDown 0 true), .step .sleptDown])).map fun s =>
          decide ((1, 0) ∈ s.accepted ∧ ∀ side ∈ [Side.up, Side.down],
            s.loops.idle side = true ∧ (s.handler side).queue.length = 0)) = some true := by
    decide +kernel
  obtain ⟨e, hsetup, h⟩ := Option.bind_eq_some_iff.mp h
  obtain ⟨s, hrun, h⟩ := Option.map_eq_some_iff.mp h
  obtain ⟨haccepted, hquiet⟩ := of_decide_eq_true h
  have hsetup := Run.Reachable.perform .start hsetup
  have hidle : s.Allowed (.accept [] : Action Bool Nat) ∧ ¬ Raises (.accept [] : Action Bool Nat) :=
    ⟨trivial, fun hraise => hraise⟩
  obtain ⟨t, ht⟩ := Run.exists_trace_of_perform (.accept [] : Action Bool Nat) hrun hidle rfl
  have hlast := ht _ (le_refl _)
  refine ⟨e, t, _, hsetup, hlast ▸ haccepted, ?_⟩
  refine (((decisions_finish hsetup).1 t fun side => ?_) _).2 (1, 0) (hlast ▸ haccepted)
  obtain ⟨hidle, hqueue⟩ := hquiet side (by cases side <;> decide)
  exact t.fair_of_quiet ht (no_step hidle (List.length_eq_zero_iff.mp hqueue))

open ElasticExecutor in
/-- A `SLEEP` command raises; the action of the next decision is never executed. -/
theorem decision_stalls_after_raise :
    ∃ (e : ElasticExecutor Bool) (s : DecisionLoops Bool),
      Run.Reachable (setup ElasticLoops.slotOrder) (fun _ _ => True) (new [(false, "m")] 1) e ∧
      Run.Reachable exec (Allowed : DecisionLoops Bool → Action Bool Nat → Prop) (start e) s ∧
      (s.handler .down).running = false ∧ (2, 0) ∈ s.accepted ∧
      s.decisionExecutionInProgress = true ∧
      ∀ s', Run.Reachable exec (Allowed : DecisionLoops Bool → Action Bool Nat → Prop) s s' →
        (2, 0) ∉ s'.finished := by
  have h : ((Run.perform (setup ElasticLoops.slotOrder) (fun _ _ => True) (new [(false, "m")] 1)
      twoInstances).bind fun e => (Run.perform exec
        (Allowed : DecisionLoops Bool → Action Bool Nat → Prop) (start e)
        (sleepSentDown ++ [.raised .down 0, .accept [scaleDownOne]])).map fun s =>
          decide ((s.handler .down).running = false ∧ (2, 0) ∈ s.accepted ∧
            s.decisionExecutionInProgress = true ∧ (2, 0) ∈ (s.handler .down).tasks)) =
              some true := by decide +kernel
  obtain ⟨e, hsetup, h⟩ := Option.bind_eq_some_iff.mp h
  obtain ⟨s, hrun, h⟩ := Option.map_eq_some_iff.mp h
  obtain ⟨hended, haccepted, hflag, htask⟩ := of_decide_eq_true h
  have hsetup := Run.Reachable.perform .start hsetup
  have hreach := Run.Reachable.perform .start hrun
  have hstart : Inv (start e) := .start (ElasticLoops.Inv.of_reachable hsetup
    (.start : Run.Reachable ElasticLoops.exec
      (ElasticLoops.Allowed : ElasticLoops Bool → ElasticLoops.Action Bool Nat → Prop) _ _))
  have hinv : Inv s := hreach.invariant hstart fun _ _ _ hs hallowed hexec =>
    (stepped hs hallowed hexec).inv
  refine ⟨e, s, hsetup, hreach, hended, haccepted, hflag, fun s' hreach' => ?_⟩
  obtain ⟨hinv', -, htasks⟩ := ended_reachable hinv hended hreach'
  exact hinv'.books.not_finished (mem_waiting_of_tasks (htasks _ htask))

end DecisionLoops

end Psrl
