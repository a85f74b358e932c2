import PulseAgent.Recovery.Guarantee

/-!
# At most one effect

An execution follows the commit that moved its record from approved to executing, and a record never
returns to a phase before that.
-/

namespace PulseAgent.Recovery

open Go Contract Concurrent

/-- What an execution changes outside the store, whoever asked for it. -/
structure EffectIdentity where
  incidentID : Bytes
  runbookID : Bytes
  runbookDigest : Bytes
  targetID : Bytes
  actionIndex : Int64
deriving DecidableEq

def effectIdentity (command : RecoveryCommand) : EffectIdentity where
  incidentID := command.incidentID
  runbookID := command.runbookID
  runbookDigest := command.runbookDigest
  targetID := command.targetID
  actionIndex := command.actionIndex

theorem recordKey_of_effectIdentity {a b : RecoveryCommand}
    (h : effectIdentity a = effectIdentity b) : recordKey a = recordKey b := by
  obtain ⟨hincident, hrunbook, hdigest, htarget, hindex⟩ := EffectIdentity.mk.inj h
  rw [recordKey, recordKey, hincident, hrunbook, hdigest, htarget, hindex]

def executedEffect : Op → Option EffectIdentity
  | .execute command _ _ => some (effectIdentity command)
  | _ => none

/-- The effect whose execution this call committed to start. -/
def startedEffect : Occurrence interface → Option EffectIdentity
  | ⟨.tx (.startExecution key), env, s⟩ =>
    match ((Transaction.startExecution key).run env.fault env.audit s).1 with
    | .ok executing => some (effectIdentity executing.command)
    | .error _ => none
  | _ => none

/-- The move of a record from approved to executing, committed. -/
structure Started (s s' : Store) (key : Bytes) (record executing : JournalRecord) : Prop where
  loads : Loads s key record
  approved : record.phase = .approved ∧ record.command.state = .approved
  moved : executing = record.moved .executing .executing
  key_eq : recordKey executing.command = key
  stored : recordAt s' key = some (JournalRecord.codec.norm executing)

theorem started_of_run {key : Bytes} {env : Environment} {s : Store} {executing : JournalRecord}
    (h : ((Transaction.startExecution key).run env.fault env.audit s).1 = .ok executing) :
    ∃ record, Started s (perform (.tx (.startExecution key)) env s).2 key record executing := by
  have hbody : startExecution key s = .ok (executing, _) := Transaction.run_ok h
  obtain ⟨record, document, hloads, hrecord, hwritten, hafter⟩ := updateRecord_ok.mp hbody
  obtain ⟨hphase, hstate, hmoved⟩ := startRecord_ok hrecord
  refine ⟨record, hloads, ⟨hphase, hstate⟩, hmoved, hwritten.key_eq, ?_⟩
  refine recordAt_of_written ?_ hwritten
  change (((Transaction.startExecution key).run env.fault env.audit s).2 .commandJournal)[key]? = _
  rw [hafter, Function.update_self, Std.ExtTreeMap.getElem?_insert_self]

theorem startedEffect_some {e : Occurrence interface} {identity : EffectIdentity}
    (h : startedEffect e = some identity) :
    ∃ key record executing, effectIdentity executing.command = identity ∧
      Started e.before e.after key record executing := by
  unfold startedEffect at h
  split at h
  case h_1 key env s =>
    split at h
    case h_1 executing hrun =>
      obtain ⟨record, hstarted⟩ := started_of_run hrun
      exact ⟨key, record, executing, Option.some.inj h, hstarted⟩
    case h_2 => cases h
  case h_2 => cases h

theorem executedEffect_some {o : Op} {identity : EffectIdentity}
    (h : executedEffect o = some identity) :
    ∃ command target action, o = .execute command target action ∧
      effectIdentity command = identity := by
  unfold executedEffect at h
  split at h
  case h_1 command target action => exact ⟨command, target, action, rfl, Option.some.inj h⟩
  case h_2 => cases h

theorem startedEffect_of_execute {e : Occurrence interface} {command : RecoveryCommand}
    {target : ServiceTarget} {action : TypedAction} (h : e.op = Op.execute command target action) :
    startedEffect e = none := by
  obtain ⟨o, env, s⟩ := e
  subst h
  rfl

theorem Authorized.started {calls : List Call} {command : RecoveryCommand} {target : ServiceTarget}
    {action : TypedAction} {h : History} (hauthorized : Authorized calls command target action h) :
    ∃ start record executing, h.head? = some start ∧
      startedEffect start = some (effectIdentity command) ∧
      start.op = Op.tx (.startExecution (recordKey command)) ∧
      Started start.before start.after (recordKey command) record executing ∧
      command = executing.command ∧ target = record.target ∧ action = record.action := by
  obtain ⟨record, executing, env, s, earlier, rfl, hrun, rfl, rfl, rfl, -⟩ := hauthorized
  obtain ⟨journaled, hstarted⟩ := started_of_run hrun
  refine ⟨_, journaled, executing, rfl, ?_, by rw [hstarted.key_eq], ?_, rfl, ?_, ?_⟩
  · simp only [startedEffect, hrun]
  · rw [hstarted.key_eq]
    exact hstarted
  · rw [hstarted.moved]
    rfl
  · rw [hstarted.moved]
    rfl

/-! ## No record starts twice -/

def RankKept (s s' : Store) : Prop :=
  ∀ key r, isRecordKey key = true → recordAt s key = some r →
    ∃ r', recordAt s' key = some r' ∧ r.phase.rank ≤ r'.phase.rank

theorem RankKept.trans {a b c : Store} (h : RankKept a b) (h' : RankKept b c) : RankKept a c := by
  intro key r hkey hr
  obtain ⟨r', hr', hle⟩ := h key r hkey hr
  obtain ⟨r'', hr'', hle'⟩ := h' key r' hkey hr'
  exact ⟨r'', hr'', hle.trans hle'⟩

theorem rankKept_of_run (s : Store) (actions : List (Action system)) :
    (run s actions).log.Pairwise fun later earlier => RankKept earlier.after later.before :=
  (related_of_run (S := system) (R := RankKept)
    (fun _ _ r _ hr => ⟨r, hr, le_refl _⟩) RankKept.trans
    (fun o env s _ _ hkey hr => (perform_effect o env s).rank_le hkey hr)
    (fun m s _ _ hkey hr => (move_effect .nothing m s).rank_le hkey hr) s actions).2

theorem not_started_twice {earlier later : Occurrence interface} {identity : EffectIdentity}
    (hrank : RankKept earlier.after later.before)
    (hearlier : startedEffect earlier = some identity) : startedEffect later ≠ some identity := by
  intro hlater
  obtain ⟨key, record, executing, hidentity, hstarted⟩ := startedEffect_some hearlier
  obtain ⟨key', record', executing', hidentity', hstarted'⟩ := startedEffect_some hlater
  have hkey : key' = key := by
    rw [← hstarted.key_eq, ← hstarted'.key_eq]
    exact recordKey_of_effectIdentity (hidentity'.trans hidentity.symm)
  subst hkey
  have hrecordKey : isRecordKey key' = true := hstarted.key_eq ▸ isRecordKey_recordKey _
  obtain ⟨r, hr, hle⟩ := hrank key' _ hrecordKey hstarted.stored
  -- the earlier start left the record at rank two, the later one found it at rank one
  obtain rfl := Option.some.inj (hr.symm.trans hstarted'.loads.recordAt_eq)
  rw [hstarted'.approved.1, hstarted.moved] at hle
  have htwo : 2 ≤ 1 := hle
  omega

/-! ## The result -/

def spawned (actions : List (Action system)) : List Call :=
  actions.filterMap fun
    | .spawn call => some call
    | _ => none

theorem guaranteed_of_run (s : Store) (actions : List (Action system)) :
    Guaranteed (S := system) (Allowed (spawned actions)) (fun _ _ _ => True) (run s actions) :=
  sat_of_run s actions fun call hcall =>
    sat_program (List.mem_filterMap.mpr ⟨.spawn call, hcall, rfl⟩)

/-- Each effect is executed at most once in a run. The last thing a call did before it executes
an action is to commit the move of the action's record from approved to executing, and it
executes the target and action of that record. -/
theorem effect_at_most_once (s : Store) (actions : List (Action system)) :
    ((run s actions).log.Pairwise fun later earlier => ∀ identity,
      executedEffect later.op = some identity → executedEffect earlier.op ≠ some identity) ∧
    ∀ (later : List (Event interface)) (e : Event interface) (earlier : List (Event interface)),
      (run s actions).log = later ++ e :: earlier →
      ∀ command target action, e.op = Op.execute command target action →
        ∃ start record executing, (history e.thread earlier).head? = some start ∧
          start.op = Op.tx (.startExecution (recordKey command)) ∧
          Started start.before start.after (recordKey command) record executing ∧
          command = executing.command ∧ target = record.target ∧ action = record.action := by
  have hauthorized : ∀ (later : List (Event interface)) (e : Event interface)
      (earlier : List (Event interface)), (run s actions).log = later ++ e :: earlier →
      ∀ command target action, e.op = Op.execute command target action →
        Authorized (spawned actions) command target action (history e.thread earlier) := by
    intro later e earlier hlog command target action hop
    have hallowed := (guaranteed_of_run s actions).events later e earlier hlog
    rw [hop] at hallowed
    exact hallowed
  refine ⟨pairwise_of_preceded startedEffect ?_ ?_ ?_, ?_⟩
  · refine (rankKept_of_run s actions).imp fun {later earlier} hrank identity hlater hearlier => ?_
    exact not_started_twice hrank hearlier hlater
  · intro e _ identity heffect
    obtain ⟨command, target, action, hop, -⟩ := executedEffect_some heffect
    exact startedEffect_of_execute hop
  · intro later e earlier hlog identity heffect
    obtain ⟨command, target, action, hop, rfl⟩ := executedEffect_some heffect
    obtain ⟨start, _, _, hhead, hstart, -⟩ :=
      (hauthorized later e earlier hlog command target action hop).started
    exact ⟨start, hhead, hstart⟩
  · intro later e earlier hlog command target action hop
    obtain ⟨start, record, executing, hhead, -, hstart⟩ :=
      (hauthorized later e earlier hlog command target action hop).started
    exact ⟨start, record, executing, hhead, hstart⟩

end PulseAgent.Recovery
