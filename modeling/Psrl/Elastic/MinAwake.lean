import Psrl.Elastic.Exclusive

/-!
# Psrl.Elastic.MinAwake

**How many instances stay awake.** `_scale_down_instance` counts the awake instances of a role and
model before it sends `SLEEP`, and the flag changes when the command has been answered. So what the
count says is only right if no other instance of the role and model is on its way to sleep. The two
loops do not know of each other's commands: an awake instance with a command in flight is not to be
counted (`spare`). As long as every command leaves enough of the others (`Spares`), whatever is
answered and in which order leaves enough awake (`min_awake_of_spares`); and after a command that
does not, all that is missing is that the commands in flight succeed (`exists_settled`).

A command that raises is answered without a result here. Its `gather` raises, and the loop takes no
more steps while the other calls go on, which is one of the runs.
-/

namespace Psrl

open Py

namespace ElasticExecutor

variable {Role : Type} [DecidableEq Role] {e e' : ElasticExecutor Role}
  {key : InstanceIdentifier Role} {status : InstanceStatus} {group : Role × String}

theorem mem_idsWith_iff {id : String × Nat} :
    id ∈ e.idsWith group status ↔ e.flag ⟨group.1, group.2, id⟩ = some status := by
  constructor
  · exact flag_of_mem_idsWith
  · intro hflag
    refine List.mem_map.mpr ⟨(id, status), List.mem_filter.mpr ⟨?_, ?_⟩, rfl⟩
    · exact Dict.get?_eq_some_iff.mp hflag
    · exact decide_eq_true rfl

theorem nodup_idsWith (group : Role × String) (status : InstanceStatus) :
    (e.idsWith group status).Nodup :=
  (e.roleStatus group).nodup_keys.sublist (List.filter_sublist.map _)

/-- The flags after one of them was set. -/
theorem flag_setStatus (h : e.setStatus key status = .ok e') (other : InstanceIdentifier Role) :
    e'.flag other = if other = key then some status else e.flag other := by
  obtain ⟨flags, hflags, hok⟩ := bind_eq_ok.mp h
  obtain ⟨topology, -, hok⟩ := bind_eq_ok.mp hok
  cases hok
  have hstatus : e.roleStatus (key.role, key.modelName) = flags := by
    rw [roleStatus, Dict.get_eq_ok.mp hflags, Option.getD_some]
  rw [← hstatus]
  exact flag_set (key.role, key.modelName) key.instanceId topology status

end ElasticExecutor

namespace ElasticLoops

open ElasticExecutor

variable {Role Usage : Type} [LinearOrder Usage] {e e' : ElasticExecutor Role}
  {s s' : ElasticLoops Role} {jobs jobs' : List (ScaleJob Role)}
  {status : InstanceStatus} {key : InstanceIdentifier Role} {group : Role × String}
  {a : Action Role Usage} {m : Nat}

/-! ### Commands in flight -/

/-- The instances of calls whose command is in flight. -/
def sentKeys (jobs : List (ScaleJob Role)) : List (InstanceIdentifier Role) :=
  keysOf (jobs.filter fun job => job.stage = .sent)

/-- The calls of the scale-up loop that put instances to sleep. -/
def upJobs (s : ElasticLoops Role) : List (ScaleJob Role) :=
  match s.up with
  | .sleeping _ jobs => jobs
  | _ => []

def downJobs (s : ElasticLoops Role) : List (ScaleJob Role) :=
  match s.down with
  | .sleeping jobs => jobs
  | .idle => []

/-- The instances with a `SLEEP` command in flight. -/
def sleepSent (s : ElasticLoops Role) : List (InstanceIdentifier Role) :=
  sentKeys s.upJobs ++ sentKeys s.downJobs

theorem mem_sentKeys : key ∈ sentKeys jobs ↔ ∃ job ∈ jobs, job.stage = .sent ∧ job.key = key := by
  unfold sentKeys keysOf
  simp only [List.mem_map, List.mem_filter, decide_eq_true_eq, and_assoc]

theorem sentKeys_jobsFor (keys : List (InstanceIdentifier Role)) :
    sentKeys (jobsFor keys) = [] := by
  rw [List.eq_nil_iff_forall_not_mem]
  intro key hkey
  obtain ⟨job, hjob, hsent, -⟩ := mem_sentKeys.mp hkey
  obtain ⟨_, -, rfl⟩ := List.mem_map.mp hjob
  cases hsent

/-- The commands in flight after one call went on. -/
theorem mem_sentKeys_modify {stage : ScaleJob Role → ScaleStage} {i : Nat}
    (hkey : key ∈ sentKeys (jobs.modify i fun job => { job with stage := stage job })) :
    key ∈ sentKeys jobs ∨ ∃ job ∈ jobs[i]?, stage job = .sent ∧ job.key = key := by
  obtain ⟨job, hjob, hsent, rfl⟩ := mem_sentKeys.mp hkey
  obtain ⟨j, hj⟩ := List.mem_iff_getElem?.mp hjob
  rw [List.getElem?_modify, Option.map_eq_map, Option.map_eq_some_iff] at hj
  obtain ⟨job', hjob', rfl⟩ := hj
  by_cases hij : i = j
  · subst hij
    rw [if_pos rfl] at hsent
    exact .inr ⟨job', hjob', hsent, by simp⟩
  · rw [if_neg hij] at hsent
    exact .inl (mem_sentKeys.mpr ⟨job', List.mem_of_getElem? hjob', hsent, by simp [hij]⟩)

/-- A command stays in flight unless its own call goes on. -/
theorem mem_sentKeys_of_modify (stage : ScaleJob Role → ScaleStage) (i : Nat)
    (hkey : key ∈ sentKeys jobs) :
    key ∈ sentKeys (jobs.modify i fun job => { job with stage := stage job }) ∨
      ∃ job ∈ jobs[i]?, job.key = key := by
  obtain ⟨job, hjob, hsent, rfl⟩ := mem_sentKeys.mp hkey
  obtain ⟨j, hj⟩ := List.mem_iff_getElem?.mp hjob
  by_cases hij : i = j
  · subst hij
    exact .inr ⟨job, hj, rfl⟩
  · refine .inl (mem_sentKeys.mpr ⟨job, List.mem_iff_getElem?.mpr ⟨j, ?_⟩, hsent, rfl⟩)
    rw [List.getElem?_modify, hj]
    simp [hij]

theorem mem_sleepSent : key ∈ s.sleepSent ↔ key ∈ sentKeys s.upJobs ∨ key ∈ sentKeys s.downJobs :=
  List.mem_append

/-- The scale-up loop goes on, with no command in flight that was not. -/
theorem sleepSent_setUp {up : ScaleUpPhase Role} {executor : ElasticExecutor Role}
    (hup : ∀ key ∈ sentKeys (upJobs ⟨executor, up, s.down⟩), key ∈ sentKeys s.upJobs) :
    ∀ key ∈ sleepSent ⟨executor, up, s.down⟩, key ∈ s.sleepSent := by
  intro key hkey
  rcases mem_sleepSent.mp hkey with hin | hin
  · exact mem_sleepSent.mpr (.inl (hup key hin))
  · exact mem_sleepSent.mpr (.inr hin)

theorem sleepSent_setDown {down : ScaleDownPhase Role} {executor : ElasticExecutor Role}
    (hdown : ∀ key ∈ sentKeys (downJobs ⟨executor, s.up, down⟩), key ∈ sentKeys s.downJobs) :
    ∀ key ∈ sleepSent ⟨executor, s.up, down⟩, key ∈ s.sleepSent := by
  intro key hkey
  rcases mem_sleepSent.mp hkey with hin | hin
  · exact mem_sleepSent.mpr (.inl hin)
  · exact mem_sleepSent.mpr (.inr (hdown key hin))

theorem upJobs_eq_nil (h : ∀ task jobs, s.up = .sleeping task jobs → False) : s.upJobs = [] := by
  unfold upJobs
  split
  · rename_i heq
    exact (h _ _ heq).elim
  · rfl

theorem downJobs_eq_nil (h : ∀ jobs, s.down = .sleeping jobs → False) : s.downJobs = [] := by
  unfold downJobs
  split
  · rename_i heq
    exact (h _ heq).elim
  · rfl

/-- The number of `SLEEP` commands in flight. -/
def inFlight (s : ElasticLoops Role) : Nat :=
  s.upJobs.countP (·.stage = .sent) + s.downJobs.countP (·.stage = .sent)

theorem sleepSent_eq_nil (h : s.inFlight = 0) : s.sleepSent = [] := by
  rw [inFlight, Nat.add_eq_zero_iff, List.countP_eq_zero, List.countP_eq_zero] at h
  rw [List.eq_nil_iff_forall_not_mem]
  intro key hkey
  rcases mem_sleepSent.mp hkey with hin | hin
  · obtain ⟨job, hjob, hsent, -⟩ := mem_sentKeys.mp hin
    exact h.1 job hjob (decide_eq_true hsent)
  · obtain ⟨job, hjob, hsent, -⟩ := mem_sentKeys.mp hin
    exact h.2 job hjob (decide_eq_true hsent)

variable [DecidableEq Role]

/-- The awake instances of a role and model without a `SLEEP` command in flight. -/
def spare (s : ElasticLoops Role) (group : Role × String) : List (String × Nat) :=
  (s.executor.idsWith group .awaken).filter fun id => ⟨group.1, group.2, id⟩ ∉ s.sleepSent

/-- The instance a call of a `gather` sends `SLEEP` to. -/
def sendsIn (e : ElasticExecutor Role) (jobs : List (ScaleJob Role)) (i : Nat) (busy : Bool) :
    Option (InstanceIdentifier Role) :=
  jobs[i]?.bind fun job => if e.maySleep job.key busy = true then some job.key else none

/-- The instance an action sends `SLEEP` to. -/
def sends (s : ElasticLoops Role) : Action Role Usage → Option (InstanceIdentifier Role)
  | .startSleepUp i busy => sendsIn s.executor s.upJobs i busy
  | .startSleepDown i busy => sendsIn s.executor s.downJobs i busy
  | _ => none

/-- A `SLEEP` command for the role and model leaves `m` awake instances without one. -/
def Spares (m : Nat) (group : Role × String) (s : ElasticLoops Role) (a : Action Role Usage) :
    Prop :=
  ∀ key ∈ s.sends a, (key.role, key.modelName) = group →
    m ≤ ((s.spare group).filter fun id => id ≠ key.instanceId).length

instance (s : ElasticLoops Role) (a : Action Role Usage) : Decidable (Spares m group s a) :=
  inferInstanceAs (Decidable (∀ key ∈ s.sends a, _))

/-- A call for an instance with a command in flight has ended. -/
structure Replied (jobs : List (ScaleJob Role)) (key : InstanceIdentifier Role)
    (jobs' : List (ScaleJob Role)) : Prop where
  sent : key ∈ sentKeys jobs
  fewer : ∀ other ∈ sentKeys jobs', other ∈ sentKeys jobs
  rest : ∀ other ∈ sentKeys jobs, other = key ∨ other ∈ sentKeys jobs'
  count : jobs'.countP (·.stage = .sent) < jobs.countP (·.stage = .sent)

/-- What the end of a call does. -/
theorem reply_cases {i : Nat} {ok : Bool} (hstage : HasStage jobs i .sent)
    (hok : reply e jobs i status ok = .ok (e', jobs')) :
    ∃ key, Replied jobs key jobs' ∧
      if ok = true then e.setStatus key status = .ok e' else e' = e := by
  obtain ⟨job, hjob, hsent⟩ := hstage
  have hget : jobs[i]? = some job := hjob
  have hend : jobs' = jobs.modify i (fun job => { job with stage := .finished }) ∧
      if ok = true then e.setStatus job.key status = .ok e' else e' = e := by
    unfold reply at hok
    rw [hget] at hok
    cases ok with
    | true =>
        obtain ⟨e₁, hset, hok⟩ := bind_eq_ok.mp hok
        cases hok
        exact ⟨rfl, hset⟩
    | false =>
        cases hok
        exact ⟨rfl, rfl⟩
  obtain ⟨rfl, hset⟩ := hend
  have hother : ∀ other, other ∈ sentKeys jobs →
      other = job.key ∨
        other ∈ sentKeys (jobs.modify i fun job => { job with stage := .finished }) := by
    intro other hkey
    rcases mem_sentKeys_of_modify (fun _ => .finished) i hkey with
      hin | ⟨job', hjob', rfl⟩
    · exact .inr hin
    · rw [hget] at hjob'
      cases hjob'
      exact .inl rfl
  refine ⟨job.key, ⟨mem_sentKeys.mpr ⟨job, List.mem_of_getElem? hget, hsent, rfl⟩,
    fun other hkey => ?_, hother, ?_⟩, hset⟩
  · rcases mem_sentKeys_modify hkey with hin | ⟨_, -, hsent', -⟩
    · exact hin
    · cases hsent'
  · have hi : i < jobs.length := (List.getElem?_eq_some_iff.mp hget).1
    have hat : jobs[i] = job := (List.getElem?_eq_some_iff.mp hget).2
    have hpos : 0 < jobs.countP (·.stage = .sent) :=
      List.countP_pos_iff.mpr ⟨job, List.mem_of_getElem? hget, by simpa using hsent⟩
    have hmodify : jobs.modify i (fun job => { job with stage := .finished }) =
        jobs.set i { job with stage := .finished } := by
      rw [List.modify_eq_set_getElem?, hget]
      rfl
    rw [hmodify, List.countP_set hi, hat]
    simp only [hsent, decide_true, if_true, reduceCtorEq, decide_false, Bool.false_eq_true,
      if_false]
    omega

/-! ### What a step changes -/

/-- What a step does to the statuses and to the commands in flight. -/
inductive Effect (s : ElasticLoops Role) (a : Action Role Usage) (s' : ElasticLoops Role) : Prop
  | kept (executor : s'.executor = s.executor) (sent : ∀ key ∈ s'.sleepSent, key ∈ s.sleepSent)
  | sent (executor : s'.executor = s.executor)
      (sent : ∀ key ∈ s'.sleepSent, key ∈ s.sleepSent ∨ key ∈ s.sends a)
  | slept (key : InstanceIdentifier Role)
      (executor : s.executor.setStatus key .asleep = .ok s'.executor)
      (inFlight : key ∈ s.sleepSent) (sent : ∀ key ∈ s'.sleepSent, key ∈ s.sleepSent)
  | woken (key : InstanceIdentifier Role)
      (executor : s.executor.setStatus key .awaken = .ok s'.executor)
      (sent : ∀ key ∈ s'.sleepSent, key ∈ s.sleepSent)

/-- The start of a call puts at most its own command in flight. -/
theorem mem_sentKeys_startSleep {i : Nat} {busy : Bool}
    (hkey : key ∈ sentKeys (startSleep e jobs i busy)) :
    key ∈ sentKeys jobs ∨ key ∈ sendsIn e jobs i busy := by
  rcases mem_sentKeys_modify hkey with hin | ⟨job, hjob, hsent, rfl⟩
  · exact .inl hin
  · refine .inr ?_
    have hmay : e.maySleep job.key busy = true := by
      by_contra hnot
      rw [if_neg hnot] at hsent
      cases hsent
    rw [sendsIn, Option.mem_def.mp hjob, Option.bind_some, if_pos hmay]
    rfl

theorem wake_effect (s : ElasticLoops Role) (task : ScaleTask Role) :
    (s.wake task).executor = s.executor ∧ ∀ key ∈ (s.wake task).sleepSent, key ∈ s.sleepSent := by
  unfold wake
  split
  · exact ⟨rfl, sleepSent_setUp fun key hkey => absurd hkey List.not_mem_nil⟩
  · exact ⟨rfl, sleepSent_setUp fun key hkey => absurd hkey List.not_mem_nil⟩

theorem exec_effect (hallowed : s.Allowed a) (hexec : exec s a = .ok s') : Effect s a s' := by
  cases a with
  | takeUp usage task =>
      cases hexec
      unfold takeUp
      split
      · exact .kept (wake_effect s task).1 (wake_effect s task).2
      · refine .kept rfl (sleepSent_setUp fun key hkey => ?_)
        rw [upJobs, sentKeys_jobsFor] at hkey
        exact absurd hkey List.not_mem_nil
  | startSleepUp i busy =>
      dsimp only [exec] at hexec
      split at hexec
      · rename_i task jobs hup
        cases hexec
        refine .sent rfl fun key hkey => ?_
        have hjobs : s.upJobs = jobs := by rw [upJobs, hup]
        rcases mem_sleepSent.mp hkey with hin | hin
        · rw [mem_sleepSent, sends, hjobs]
          exact (mem_sentKeys_startSleep hin).imp .inl id
        · exact .inl (mem_sleepSent.mpr (.inr hin))
      · cases hexec
        exact .kept rfl fun _ hkey => hkey
  | replySleepUp i ok =>
      dsimp only [Allowed] at hallowed
      dsimp only [exec] at hexec
      split at hallowed
      · rename_i task jobs hup
        rw [hup] at hexec
        obtain ⟨⟨e', jobs'⟩, hreply, hexec⟩ := bind_eq_ok.mp hexec
        cases hexec
        have hjobs : s.upJobs = jobs := by rw [upJobs, hup]
        obtain ⟨key, hreplied, hset⟩ := reply_cases hallowed hreply
        have hsent : ∀ key ∈ sleepSent ⟨e', .sleeping task jobs', s.down⟩, key ∈ s.sleepSent :=
          sleepSent_setUp fun key hkey => by
            rw [hjobs]
            exact hreplied.fewer key hkey
        cases ok with
        | true =>
            refine .slept key hset ?_ hsent
            rw [mem_sleepSent, hjobs]
            exact .inl hreplied.sent
        | false => exact .kept hset hsent
      · exact hallowed.elim
  | sleptUp =>
      dsimp only [exec] at hexec
      split at hexec
      · cases hexec
        exact .kept (wake_effect s _).1 (wake_effect s _).2
      · cases hexec
        exact .kept rfl fun _ hkey => hkey
  | startWake | wokenUp =>
      dsimp only [exec] at hexec
      split at hexec
      · cases hexec
        exact .kept rfl (sleepSent_setUp fun key hkey => absurd hkey List.not_mem_nil)
      · cases hexec
        exact .kept rfl fun _ hkey => hkey
  | replyWake i ok =>
      dsimp only [Allowed] at hallowed
      dsimp only [exec] at hexec
      split at hallowed
      · rename_i task jobs hup
        rw [hup] at hexec
        obtain ⟨⟨e', jobs'⟩, hreply, hexec⟩ := bind_eq_ok.mp hexec
        cases hexec
        obtain ⟨key, -, hset⟩ := reply_cases hallowed hreply
        have hsent : ∀ key ∈ sleepSent ⟨e', .waking task jobs', s.down⟩, key ∈ s.sleepSent :=
          sleepSent_setUp fun key hkey => absurd hkey List.not_mem_nil
        cases ok with
        | true => exact .woken key hset hsent
        | false => exact .kept hset hsent
      · exact hallowed.elim
  | interrupted =>
      cases hexec
      exact .kept rfl (sleepSent_setUp fun key hkey => absurd hkey List.not_mem_nil)
  | takeDown usage task =>
      cases hexec
      unfold takeDown
      split
      · exact .kept rfl fun _ hkey => hkey
      · refine .kept rfl (sleepSent_setDown fun key hkey => ?_)
        rw [downJobs, sentKeys_jobsFor] at hkey
        exact absurd hkey List.not_mem_nil
  | startSleepDown i busy =>
      dsimp only [exec] at hexec
      split at hexec
      · rename_i jobs hdown
        cases hexec
        refine .sent rfl fun key hkey => ?_
        have hjobs : s.downJobs = jobs := by rw [downJobs, hdown]
        rcases mem_sleepSent.mp hkey with hin | hin
        · exact .inl (mem_sleepSent.mpr (.inl hin))
        · rw [mem_sleepSent, sends, hjobs]
          exact (mem_sentKeys_startSleep hin).imp .inr id
      · cases hexec
        exact .kept rfl fun _ hkey => hkey
  | replySleepDown i ok =>
      dsimp only [Allowed] at hallowed
      dsimp only [exec] at hexec
      split at hallowed
      · rename_i jobs hdown
        rw [hdown] at hexec
        obtain ⟨⟨e', jobs'⟩, hreply, hexec⟩ := bind_eq_ok.mp hexec
        cases hexec
        have hjobs : s.downJobs = jobs := by rw [downJobs, hdown]
        obtain ⟨key, hreplied, hset⟩ := reply_cases hallowed hreply
        have hsent : ∀ key ∈ sleepSent ⟨e', s.up, .sleeping jobs'⟩, key ∈ s.sleepSent :=
          sleepSent_setDown fun key hkey => by
            rw [hjobs]
            exact hreplied.fewer key hkey
        cases ok with
        | true =>
            refine .slept key hset ?_ hsent
            rw [mem_sleepSent, hjobs]
            exact .inr hreplied.sent
        | false => exact .kept hset hsent
      · exact hallowed.elim
  | sleptDown =>
      cases hexec
      exact .kept rfl (sleepSent_setDown fun key hkey => absurd hkey List.not_mem_nil)

/-! ### Instances to spare -/

theorem mem_spare {id : String × Nat} : id ∈ s.spare group ↔
    s.executor.flag ⟨group.1, group.2, id⟩ = some .awaken ∧
      ⟨group.1, group.2, id⟩ ∉ s.sleepSent := by
  rw [spare, List.mem_filter, mem_idsWith_iff, decide_eq_true_eq]

theorem nodup_spare (group : Role × String) : (s.spare group).Nodup :=
  (nodup_idsWith group .awaken).sublist List.filter_sublist

theorem length_le_of_subset {ids ids' : List (String × Nat)} (hnodup : ids.Nodup)
    (hsub : ∀ id ∈ ids, id ∈ ids') : ids.length ≤ ids'.length :=
  (hnodup.subperm hsub).length_le

theorem spare_length_le (s : ElasticLoops Role) (group : Role × String) :
    (s.spare group).length ≤ (s.executor.idsWith group .awaken).length :=
  List.filter_sublist.length_le

/-- A careful step leaves enough instances to spare. -/
theorem spare_exec (hspare : m ≤ (s.spare group).length) (hallowed : s.Allowed a)
    (hcareful : Spares m group s a) (hexec : exec s a = .ok s') : m ≤ (s'.spare group).length := by
  cases exec_effect hallowed hexec with
  | kept hexecutor hsent =>
      refine hspare.trans (length_le_of_subset (nodup_spare group) fun id hid => ?_)
      obtain ⟨hflag, hnot⟩ := mem_spare.mp hid
      exact mem_spare.mpr ⟨hexecutor ▸ hflag, fun hin => hnot (hsent _ hin)⟩
  | slept key hset hin hsent =>
      refine hspare.trans (length_le_of_subset (nodup_spare group) fun id hid => ?_)
      obtain ⟨hflag, hnot⟩ := mem_spare.mp hid
      refine mem_spare.mpr ⟨?_, fun hin => hnot (hsent _ hin)⟩
      have hne : (⟨group.1, group.2, id⟩ : InstanceIdentifier Role) ≠ key := by
        rintro rfl
        exact hnot hin
      rw [flag_setStatus hset, if_neg hne]
      exact hflag
  | woken key hset hsent =>
      refine hspare.trans (length_le_of_subset (nodup_spare group) fun id hid => ?_)
      obtain ⟨hflag, hnot⟩ := mem_spare.mp hid
      refine mem_spare.mpr ⟨?_, fun hin => hnot (hsent _ hin)⟩
      rw [flag_setStatus hset]
      split
      · rfl
      · exact hflag
  | sent hexecutor hsent =>
      have hkeep : ∀ id ∈ s.spare group, ⟨group.1, group.2, id⟩ ∉ s.sends a →
          id ∈ s'.spare group := by
        intro id hid hother
        obtain ⟨hflag, hnot⟩ := mem_spare.mp hid
        exact mem_spare.mpr ⟨hexecutor ▸ hflag, fun hin => (hsent _ hin).elim hnot hother⟩
      -- At most one command is sent, and it only counts for its own role and model.
      cases hsends : s.sends a with
      | none =>
          refine hspare.trans (length_le_of_subset (nodup_spare group) fun id hid => ?_)
          exact hkeep id hid (by rw [hsends]; exact Option.not_mem_none _)
      | some key =>
          by_cases hgroup : (key.role, key.modelName) = group
          · refine (hcareful key hsends hgroup).trans (length_le_of_subset
              ((nodup_spare group).sublist List.filter_sublist) fun id hid => ?_)
            obtain ⟨hid, hne⟩ := List.mem_filter.mp hid
            refine hkeep id hid fun hin => ?_
            rw [hsends] at hin
            cases hin
            simp at hne
          · refine hspare.trans (length_le_of_subset (nodup_spare group) fun id hid => ?_)
            refine hkeep id hid fun hin => hgroup ?_
            rw [hsends] at hin
            cases hin
            rfl

/-! ### When all commands in flight succeed -/

/-- An instance that falls asleep was not one to spare. -/
theorem spare_of_slept (hset : s.executor.setStatus key .asleep = .ok s'.executor)
    (hrest : ∀ other ∈ s.sleepSent, other = key ∨ other ∈ s'.sleepSent) {id : String × Nat}
    (hid : id ∈ s'.spare group) : id ∈ s.spare group := by
  obtain ⟨hflag, hnot⟩ := mem_spare.mp hid
  rw [flag_setStatus hset] at hflag
  split at hflag
  · cases hflag
  · rename_i hne
    refine mem_spare.mpr ⟨hflag, fun hin => ?_⟩
    rcases hrest _ hin with heq | hin
    · exact hne heq
    · exact hnot hin

/-- One of the commands in flight succeeds. -/
theorem exists_slept (Usage : Type) [LinearOrder Usage] (h : Inv s) (hsent : 0 < s.inFlight) :
    ∃ (a : Action Role Usage) (s' : ElasticLoops Role), s.Allowed a ∧ exec s a = .ok s' ∧
      s'.inFlight < s.inFlight ∧ ∀ group, ∀ id ∈ s'.spare group, id ∈ s.spare group := by
  have hstage : ∀ {jobs : List (ScaleJob Role)}, 0 < jobs.countP (·.stage = .sent) →
      ∃ i, HasStage jobs i .sent := by
    intro jobs hpos
    obtain ⟨job, hjob, hjobSent⟩ := List.countP_pos_iff.mp hpos
    obtain ⟨i, hi⟩ := List.mem_iff_getElem?.mp hjob
    exact ⟨i, job, hi, of_decide_eq_true hjobSent⟩
  rcases Nat.add_pos_iff_pos_or_pos.mp hsent with hpos | hpos
  · obtain ⟨i, hi⟩ := hstage hpos
    unfold upJobs at hi
    split at hi
    · rename_i task jobs hup
      obtain ⟨s', hexec, -⟩ := h.exec (.replySleepUp i true : Action Role Usage)
      refine ⟨.replySleepUp i true, s', by rw [Allowed, hup]; exact hi, hexec, ?_⟩
      have hjobs : s.upJobs = jobs := by rw [upJobs, hup]
      rw [exec, hup] at hexec
      obtain ⟨⟨e', jobs'⟩, hreply, hexec⟩ := bind_eq_ok.mp hexec
      cases hexec
      obtain ⟨key, hreplied, hset⟩ := reply_cases hi hreply
      have hset : s.executor.setStatus key .asleep = .ok e' := hset
      refine ⟨?_, fun group id hid => ?_⟩
      · rw [inFlight, inFlight, hjobs]
        exact Nat.add_lt_add_right hreplied.count _
      · refine spare_of_slept hset (fun other hother => ?_) hid
        rw [mem_sleepSent, hjobs] at hother
        rw [mem_sleepSent, ← or_assoc]
        exact hother.imp (hreplied.rest other) fun hdown => hdown
    · obtain ⟨job, hjob, -⟩ := hi
      cases hjob
  · obtain ⟨i, hi⟩ := hstage hpos
    unfold downJobs at hi
    split at hi
    · rename_i jobs hdown
      obtain ⟨s', hexec, -⟩ := h.exec (.replySleepDown i true : Action Role Usage)
      refine ⟨.replySleepDown i true, s', by rw [Allowed, hdown]; exact hi, hexec, ?_⟩
      have hjobs : s.downJobs = jobs := by rw [downJobs, hdown]
      rw [exec, hdown] at hexec
      obtain ⟨⟨e', jobs'⟩, hreply, hexec⟩ := bind_eq_ok.mp hexec
      cases hexec
      obtain ⟨key, hreplied, hset⟩ := reply_cases hi hreply
      have hset : s.executor.setStatus key .asleep = .ok e' := hset
      refine ⟨?_, fun group id hid => ?_⟩
      · rw [inFlight, inFlight, hjobs]
        exact Nat.add_lt_add_left hreplied.count _
      · refine spare_of_slept hset (fun other hother => ?_) hid
        rw [mem_sleepSent, hjobs] at hother
        rw [mem_sleepSent, or_left_comm]
        exact hother.imp (fun hup => hup) (hreplied.rest other)
    · obtain ⟨job, hjob, -⟩ := hi
      cases hjob

/-- After all commands in flight have succeeded, the instances to spare are those awake. -/
theorem exists_settled (Usage : Type) [LinearOrder Usage] (group : Role × String) (n : Nat) :
    ∀ {s : ElasticLoops Role}, Inv s → s.inFlight = n →
      ∃ s', Run.Reachable exec (Allowed : ElasticLoops Role → Action Role Usage → Prop) s s' ∧
        (s'.executor.idsWith group .awaken).length ≤ (s.spare group).length := by
  induction n using Nat.strong_induction_on with
  | _ n ih =>
      intro s h hn
      by_cases hzero : s.inFlight = 0
      · refine ⟨s, .start, length_le_of_subset (nodup_idsWith group .awaken) fun id hid => ?_⟩
        refine mem_spare.mpr ⟨mem_idsWith_iff.mp hid, ?_⟩
        rw [sleepSent_eq_nil hzero]
        exact List.not_mem_nil
      · obtain ⟨a, s₁, hallowed, hexec, hless, hspare⟩ :=
          exists_slept Usage h (Nat.pos_of_ne_zero hzero)
        obtain ⟨s₂, hexec', hinv⟩ := h.exec a
        rw [hexec] at hexec'
        cases hexec'
        obtain ⟨s', hreach, hle⟩ := ih s₁.inFlight (hn ▸ hless) hinv rfl
        refine ⟨s', (Run.Reachable.step .start hallowed hexec).trans hreach, hle.trans ?_⟩
        exact length_le_of_subset (nodup_spare group) (hspare group)

/-- A call that sends its command puts it in flight. -/
theorem sentKeys_startSleep {i : Nat} {busy : Bool} (hsends : key ∈ sendsIn e jobs i busy) :
    ∀ other, other = key ∨ other ∈ sentKeys jobs → other ∈ sentKeys (startSleep e jobs i busy) := by
  obtain ⟨job, hjob, hmay⟩ := Option.bind_eq_some_iff.mp hsends
  have hkey : e.maySleep job.key busy = true ∧ job.key = key := by
    by_cases hmay' : e.maySleep job.key busy = true
    · rw [if_pos hmay'] at hmay
      exact ⟨hmay', Option.some.inj hmay⟩
    · rw [if_neg hmay'] at hmay
      cases hmay
  obtain ⟨hmay', rfl⟩ := hkey
  have hown : job.key ∈ sentKeys (startSleep e jobs i busy) := by
    refine mem_sentKeys.mpr
      ⟨{ job with stage := .sent }, List.mem_iff_getElem?.mpr ⟨i, ?_⟩, rfl, rfl⟩
    rw [startSleep, List.getElem?_modify, hjob]
    simp [hmay']
  rintro other (rfl | hin)
  · exact hown
  · rcases mem_sentKeys_of_modify (fun job => if e.maySleep job.key busy = true then .sent
      else .finished) i hin with hin | ⟨job', hjob', rfl⟩
    · exact hin
    · rw [hjob] at hjob'
      cases hjob'
      exact hown

/-- The effect of an action that sends a command. -/
theorem exec_of_sends (hsends : key ∈ s.sends a) (hexec : exec s a = .ok s') :
    s'.executor = s.executor ∧
      ∀ other, other = key ∨ other ∈ s.sleepSent → other ∈ s'.sleepSent := by
  cases a with
  | startSleepUp i busy =>
      dsimp only [exec] at hexec
      split at hexec
      · rename_i task jobs hup
        cases hexec
        have hjobs : s.upJobs = jobs := by rw [upJobs, hup]
        rw [sends, hjobs] at hsends
        have hsent := sentKeys_startSleep hsends
        refine ⟨rfl, fun other hother => mem_sleepSent.mpr ?_⟩
        rw [mem_sleepSent, hjobs] at hother
        rcases hother with heq | hin | hin
        · exact .inl (hsent other (.inl heq))
        · exact .inl (hsent other (.inr hin))
        · exact .inr hin
      · rename_i hup
        rw [sends, upJobs_eq_nil hup] at hsends
        cases hsends
  | startSleepDown i busy =>
      dsimp only [exec] at hexec
      split at hexec
      · rename_i jobs hdown
        cases hexec
        have hjobs : s.downJobs = jobs := by rw [downJobs, hdown]
        rw [sends, hjobs] at hsends
        have hsent := sentKeys_startSleep hsends
        refine ⟨rfl, fun other hother => mem_sleepSent.mpr ?_⟩
        rw [mem_sleepSent, hjobs] at hother
        rcases hother with heq | hin | hin
        · exact .inr (hsent other (.inl heq))
        · exact .inl hin
        · exact .inr (hsent other (.inr hin))
      · rename_i hdown
        rw [sends, downJobs_eq_nil hdown] at hsends
        cases hsends
  | _ => cases hsends

/-- After a careless command there are too few instances to spare. -/
theorem spare_of_careless (hcareless : ¬ Spares m group s a) (hexec : exec s a = .ok s') :
    (s'.spare group).length < m := by
  obtain ⟨key, hcareless⟩ := not_forall.mp hcareless
  obtain ⟨hsends, hcareless⟩ := Classical.not_imp.mp hcareless
  obtain ⟨hgroup, hfew⟩ := Classical.not_imp.mp hcareless
  have hfew := Nat.lt_of_not_le hfew
  obtain ⟨hexecutor, hsent⟩ := exec_of_sends hsends hexec
  refine lt_of_le_of_lt (length_le_of_subset (nodup_spare group) fun id hid => ?_) hfew
  obtain ⟨hflag, hnot⟩ := mem_spare.mp hid
  rw [hexecutor] at hflag
  refine List.mem_filter.mpr ⟨mem_spare.mpr ⟨hflag, fun hin => hnot (hsent _ (.inr hin))⟩, ?_⟩
  refine decide_eq_true fun heq => hnot (hsent _ (.inl ?_))
  rw [heq, ← hgroup]

/-! ### The minimum -/

/-- **Enough instances stay awake.** As long as every `SLEEP` command for a role and model leaves
`min_awake_per_role` of its awake instances without one, so many stay awake, whatever the commands
in flight report. After a command that leaves fewer, some outcome leaves fewer awake. -/
theorem min_awake_of_spares {order : SetOrder GPUSlot} {roles : List (Role × String)}
    {minAwakePerRole : Nat}
    (hsetup : Run.Reachable (setup order) (fun _ _ => True) (new roles minAwakePerRole) e)
    (hstart : minAwakePerRole ≤ (e.idsWith group .awaken).length)
    (hreach : Run.Reachable exec (fun (s : ElasticLoops Role) (a : Action Role Usage) =>
      s.Allowed a ∧ Spares minAwakePerRole group s a) (start e) s) :
    minAwakePerRole ≤ (s.executor.idsWith group .awaken).length ∧
    ∀ (a : Action Role Usage) s₁, s.Allowed a → exec s a = .ok s₁ →
      ¬ Spares minAwakePerRole group s a →
        ∃ s', Run.Reachable exec (Allowed : ElasticLoops Role → Action Role Usage → Prop) s₁ s' ∧
          (s'.executor.idsWith group .awaken).length < minAwakePerRole := by
  have hspare : minAwakePerRole ≤ (s.spare group).length := by
    refine hreach.invariant ?_ fun s a s' hspare hboth hexec =>
      spare_exec hspare hboth.1 hboth.2 hexec
    refine hstart.trans (length_le_of_subset (nodup_idsWith group .awaken) fun id hid => ?_)
    exact mem_spare.mpr ⟨mem_idsWith_iff.mp hid, List.not_mem_nil⟩
  refine ⟨hspare.trans (spare_length_le s group), fun a s₁ hallowed hexec hcareless => ?_⟩
  have hinv : Inv s := Inv.of_reachable hsetup (hreach.mono fun _ _ hboth => hboth.1)
  obtain ⟨s₂, hexec', hinv₁⟩ := hinv.exec a
  rw [hexec] at hexec'
  cases hexec'
  obtain ⟨s', hreach', hle⟩ := exists_settled Usage group _ hinv₁ rfl
  exact ⟨s', hreach', lt_of_le_of_lt hle (spare_of_careless hcareless hexec)⟩

/-- A role with two awake instances, one of them on the GPU of another role. -/
def twoAwake : List (SetupAction Bool) :=
  [.register (false, "m") [("a", 0), ("a", 1)] [{(none, 0)}, {(none, 1)}],
    .register (true, "m") [("b", 0)] [{(none, 0)}], .select (false, "m") 2 2]

/-- The other role takes the first instance's GPU. -/
def scaleUpOther : Action Bool Nat := .takeUp (fun key => key.instanceId.2) ⟨true, "m", 1, []⟩

/-- The role gives up its second instance. -/
def scaleDownSecond : Action Bool Nat :=
  .takeDown (fun key => key.instanceId.2) ⟨false, "m", 1, [("a", 1)]⟩

/-- The second command is only sent when the first one is answered, and then it is not sent. -/
theorem min_awake_in_turn :
    ∃ (e : ElasticExecutor Bool) (s : ElasticLoops Bool),
      Run.Reachable (setup slotOrder) (fun _ _ => True) (new [(false, "m"), (true, "m")] 1) e ∧
      Run.Reachable exec (fun (s : ElasticLoops Bool) (a : Action Bool Nat) =>
        s.Allowed a ∧ Spares 1 (false, "m") s a) (start e) s ∧
      s.executor.flag ⟨false, "m", "a", 0⟩ = some .asleep ∧
      1 ≤ (s.executor.idsWith (false, "m") .awaken).length := by
  have h : ((Run.perform (setup slotOrder) (fun _ _ => True) (new [(false, "m"), (true, "m")] 1)
      twoAwake).bind fun e =>
        (Run.perform exec (fun (s : ElasticLoops Bool) (a : Action Bool Nat) =>
        s.Allowed a ∧ Spares 1 (false, "m") s a) (start e)
        [scaleUpOther, scaleDownSecond, .startSleepUp 0 false, .replySleepUp 0 true,
          .startSleepDown 0 false]).map fun s =>
            decide (1 ≤ (e.idsWith (false, "m") .awaken).length ∧
              s.executor.flag ⟨false, "m", "a", 0⟩ = some .asleep)) = some true := by decide +kernel
  obtain ⟨e, hsetup, h⟩ := Option.bind_eq_some_iff.mp h
  obtain ⟨s, hrun, h⟩ := Option.map_eq_some_iff.mp h
  obtain ⟨hstart, hasleep⟩ := of_decide_eq_true h
  have hsetup := Run.Reachable.perform .start hsetup
  have hreach := Run.Reachable.perform .start hrun
  exact ⟨e, s, hsetup, hreach, hasleep, (min_awake_of_spares hsetup hstart hreach).1⟩

/-- The two loops send `SLEEP` to the two awake instances of a role, each before the other command
is answered. -/
theorem none_awake_after_overlap :
    ∃ (e : ElasticExecutor Bool) (s : ElasticLoops Bool),
      Run.Reachable (setup slotOrder) (fun _ _ => True) (new [(false, "m"), (true, "m")] 1) e ∧
      1 ≤ (e.idsWith (false, "m") .awaken).length ∧
      Run.Reachable exec (Allowed : ElasticLoops Bool → Action Bool Nat → Prop) (start e) s ∧
      s.executor.idsWith (false, "m") .awaken = [] := by
  have h : ((Run.perform (setup slotOrder) (fun _ _ => True) (new [(false, "m"), (true, "m")] 1)
      twoAwake).bind fun e => (Run.perform exec (Allowed : _ → Action Bool Nat → Prop) (start e)
        [scaleUpOther, scaleDownSecond, .startSleepUp 0 false, .startSleepDown 0 false,
          .replySleepUp 0 true, .replySleepDown 0 true]).map fun s =>
            decide (1 ≤ (e.idsWith (false, "m") .awaken).length ∧
              s.executor.idsWith (false, "m") .awaken = [])) = some true := by decide +kernel
  obtain ⟨e, hsetup, h⟩ := Option.bind_eq_some_iff.mp h
  obtain ⟨s, hrun, h⟩ := Option.map_eq_some_iff.mp h
  obtain ⟨hstart, hnone⟩ := of_decide_eq_true h
  exact ⟨e, s, Run.Reachable.perform .start hsetup, hstart, Run.Reachable.perform .start hrun,
    hnone⟩

end ElasticLoops

end Psrl
