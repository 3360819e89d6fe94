import Forcola.Library.BigEndian
import Forcola.Native.Pump

/-! The report a forked child leaves about its setup, and the stage a failed spawn is put down to. -/

namespace Forcola.Native.SpawnError

open Forcola.Library

inductive Stage
  | spawn
  | cwd
  | exec
  | privdrop
  | cgroup
  | pty
deriving DecidableEq, Repr

def Stage.code : Stage → UInt8
  | .spawn => 1
  | .cwd => 2
  | .exec => 3
  | .privdrop => 4
  | .cgroup => 5
  | .pty => 6

/-- All that the child and its reporter read of an `io::Error`. -/
structure RawError where
  rawOsError : Option ℤ
deriving DecidableEq, Repr

structure SpawnFailure where
  stage : Stage
  error : RawError
  path : Option String
deriving DecidableEq, Repr

def eio : ℤ := 5

def einval : ℤ := 22

def toBeBytes (n : ℤ) : Bytes :=
  BigEndian.encode 4 (n % 2 ^ 32).toNat

def fromBeBytes (bytes : Bytes) : ℤ :=
  if BigEndian.decode bytes < 2 ^ 31 then BigEndian.decode bytes
  else BigEndian.decode bytes - 2 ^ 32

/-- How `write(2)` takes a record: after any number of `EINTR`, some of its bytes or an error. -/
inductive Writing
  | interrupted (rest : Writing)
  | wrote (count : Fin 9)
  | failed (errno : ℤ)

def Writing.complete : Writing → Bool
  | .interrupted rest => rest.complete
  | .wrote count => count = 8
  | .failed _ => false

def record (stage : Stage) (errno : ℤ) : Bytes :=
  [0x46, 0x53, stage.code, 0] ++ toBeBytes errno

/-- What a piece of the hook puts into the report pipe, and how it ends. -/
abbrev Hook := Bytes × Except RawError Unit

def Hook.done : Hook := ([], .ok ())

def Hook.andThen (a b : Hook) : Hook :=
  match a.2 with
  | .ok () => (a.1 ++ b.1, b.2)
  | .error e => (a.1, .error e)

def write (stage : Stage) (errno : ℤ) : Writing → Hook
  | .interrupted rest => write stage errno rest
  | .wrote count =>
    if count = 8 then (record stage errno, .ok ())
    else ((record stage errno).take count, .error ⟨some eio⟩)
  | .failed errno => ([], .error ⟨some errno⟩)

structure Winsize where
  rows : ℕ
  cols : ℕ
deriving DecidableEq, Repr

structure ChildSetup where
  cwd : Option String
  reporter : Bool
  plan : Bool
  placement : Bool
  pty : Bool
  winsize : Option Winsize
deriving DecidableEq, Repr

structure Os where
  chdir : String → Except RawError Unit
  setsid : Except RawError Unit
  tiocsctty : Except RawError Unit
  tcsetwinsize : Winsize → Except RawError Unit
  joinInChild : Except RawError Unit
  applyPlan : Except RawError Unit
  write : Stage → ℤ → Writing

namespace ChildSetup

variable (setup : ChildSetup) (os : Os)

/-- `ChildSetup::check`, with the reporter's own. -/
def check (stage : Stage) (result : Except RawError Unit) : Hook :=
  if setup.reporter then
    match result with
    | .error e => ((write stage (e.rawOsError.getD einval) (os.write stage
        (e.rawOsError.getD einval))).1, result)
    | .ok () => ([], result)
  else ([], result)

def readyForExec : Hook :=
  if setup.reporter then write .exec 0 (os.write .exec 0) else .done

def apply : Hook :=
  (match setup.cwd with
    | some cwd => setup.check os .cwd (os.chdir cwd)
    | none => .done).andThen <|
  (setup.check os .spawn os.setsid).andThen <|
  (if setup.pty then
    (setup.check os .pty os.tiocsctty).andThen <|
      match setup.winsize with
      | some winsize => setup.check os .pty (os.tcsetwinsize winsize)
      | none => .done
    else .done).andThen <|
  (if setup.placement then setup.check os .cgroup os.joinInChild else .done).andThen <|
  (if setup.plan then setup.check os .privdrop os.applyPlan else .done).andThen <|
  setup.readyForExec os

end ChildSetup

/-- The stage `ReportReader::failure` reads from the eight bytes it waits for. -/
def reportedStage (pipe : Bytes) (error : RawError) : Stage :=
  match pipe.take 8 with
  | [mark, mark', code, reserved, e₀, e₁, e₂, e₃] =>
    if mark = 0x46 ∧ mark' = 0x53 ∧ reserved = 0 then
      let reportedErrno := fromBeBytes [e₀, e₁, e₂, e₃]
      let matched := 0 < reportedErrno ∧ error.rawOsError = some reportedErrno
      if code = 2 ∧ matched then .cwd
      else if code = 3 ∧ reportedErrno = 0 then .exec
      else if code = 4 ∧ matched then .privdrop
      else if code = 5 ∧ matched then .cgroup
      else if code = 6 ∧ matched then .pty
      else .spawn
    else .spawn
  | _ => .spawn

def failure (pipe : Bytes) (error : RawError) (argv0 : String) (cwd cgroup : Option String) :
    SpawnFailure :=
  let stage := reportedStage pipe error
  { stage := stage
    error := error
    path := match stage with
      | .cwd => cwd
      | .exec => some argv0
      | .cgroup => cgroup
      | _ => none }

/-- How `Command::spawn` fails: before the child runs its hook, in the hook, or in exec. -/
inductive Attempt
  | unforked (error : RawError)
  | forked (exec : RawError)

/-- The report and the error of a failed `Command::spawn`; std hands over the hook's errno. -/
def Attempt.outcome (setup : ChildSetup) (os : Os) : Attempt → Bytes × RawError
  | .unforked error => ([], error)
  | .forked exec =>
    match setup.apply os with
    | (pipe, .error e) => (pipe, ⟨some (e.rawOsError.getD einval)⟩)
    | (pipe, .ok ()) => (pipe, exec)

/-- `finish_spawn` on a failed spawn; a reader comes with the reporter. -/
def finishSpawn (setup : ChildSetup) (os : Os) (attempt : Attempt) (argv0 : String)
    (cwd cgroup : Option String) : SpawnFailure :=
  let outcome := attempt.outcome setup os
  if setup.reporter then failure outcome.1 outcome.2 argv0 cwd cgroup
  else ⟨.spawn, outcome.2, none⟩

inductive Step
  | chdir (cwd : String)
  | setsid
  | tiocsctty
  | tcsetwinsize (winsize : Winsize)
  | joinInChild
  | applyPlan
deriving DecidableEq, Repr

def Step.stage : Step → Stage
  | .chdir _ => .cwd
  | .setsid => .spawn
  | .tiocsctty | .tcsetwinsize _ => .pty
  | .joinInChild => .cgroup
  | .applyPlan => .privdrop

def Os.result (os : Os) : Step → Except RawError Unit
  | .chdir cwd => os.chdir cwd
  | .setsid => os.setsid
  | .tiocsctty => os.tiocsctty
  | .tcsetwinsize winsize => os.tcsetwinsize winsize
  | .joinInChild => os.joinInChild
  | .applyPlan => os.applyPlan

def ChildSetup.steps (setup : ChildSetup) : List Step :=
  (setup.cwd.map .chdir).toList ++ [.setsid] ++
    (if setup.pty then .tiocsctty :: (setup.winsize.map .tcsetwinsize).toList else []) ++
    (if setup.placement then [.joinInChild] else []) ++
    if setup.plan then [.applyPlan] else []

def RawError.errno (e : RawError) : ℤ :=
  e.rawOsError.getD einval

def Stage.path (stage : Stage) (argv0 : String) (cwd cgroup : Option String) : Option String :=
  match stage with
  | .cwd => cwd
  | .exec => some argv0
  | .cgroup => cgroup
  | .spawn | .privdrop | .pty => none

variable {setup : ChildSetup} {os : Os} {argv0 : String} {cwd cgroup : Option String}
  {stage : Stage} {pipe : Bytes} {error : RawError} {n : ℤ}

lemma fromBeBytes_toBeBytes (hlow : -2 ^ 31 ≤ n) (hhigh : n < 2 ^ 31) :
    fromBeBytes (toBeBytes n) = n := by
  have hmod : (n % 2 ^ 32).toNat < 256 ^ 4 := by
    omega
  have hdecode := BigEndian.decode_encode 4 (n % 2 ^ 32).toNat
  rw [Nat.mod_eq_of_lt hmod] at hdecode
  rw [fromBeBytes, toBeBytes, hdecode]
  split <;> omega

@[simp] lemma length_record (stage : Stage) (n : ℤ) : (record stage n).length = 8 := by
  simp [record, toBeBytes]

def named (error : RawError) (stage : Stage) (n : ℤ) : Stage :=
  match stage with
  | .spawn => .spawn
  | .exec => if n = 0 then .exec else .spawn
  | .cwd | .privdrop | .cgroup | .pty =>
    if 0 < n ∧ error.rawOsError = some n then stage else .spawn

lemma failure_path (pipe : Bytes) (error : RawError) (argv0 : String) (cwd cgroup : Option String) :
    (failure pipe error argv0 cwd cgroup).path =
      (failure pipe error argv0 cwd cgroup).stage.path argv0 cwd cgroup := by
  rw [failure]
  dsimp only
  cases reportedStage pipe error <;> rfl

lemma reportedStage_record (hpipe : pipe.take 8 = record stage n) (hlow : -2 ^ 31 ≤ n)
    (hhigh : n < 2 ^ 31) : reportedStage pipe error = named error stage n := by
  have herrno := fromBeBytes_toBeBytes hlow hhigh
  have hlength : (toBeBytes n).length = 4 := BigEndian.length_encode 4 _
  rw [reportedStage, hpipe, record]
  match hbytes : toBeBytes n, hlength with
  | [e₀, e₁, e₂, e₃], _ =>
    rw [hbytes] at herrno
    cases stage <;> simp [Stage.code, named, herrno]

lemma toBeBytes_fromBeBytes {bytes : Bytes} (h : bytes.length = 4) :
    toBeBytes (fromBeBytes bytes) = bytes ∧
      -2 ^ 31 ≤ fromBeBytes bytes ∧ fromBeBytes bytes < 2 ^ 31 := by
  have hlt := BigEndian.decode_lt bytes
  have hencode := BigEndian.encode_decode bytes
  rw [h] at hlt hencode
  have hmod : (fromBeBytes bytes % 2 ^ 32).toNat = BigEndian.decode bytes ∧
      -2 ^ 31 ≤ fromBeBytes bytes ∧ fromBeBytes bytes < 2 ^ 31 := by
    rw [fromBeBytes]
    split <;> omega
  rw [toBeBytes, hmod.1]
  exact ⟨hencode, hmod.2⟩

lemma reportedStage_whole (h : reportedStage pipe error ≠ .spawn) :
    ∃ stage n, -2 ^ 31 ≤ n ∧ n < 2 ^ 31 ∧ pipe.take 8 = record stage n := by
  rw [reportedStage] at h
  split at h
  · next mark mark' code reserved e₀ e₁ e₂ e₃ hbytes =>
    obtain ⟨herrno, hlow, hhigh⟩ := @toBeBytes_fromBeBytes [e₀, e₁, e₂, e₃] rfl
    split at h
    · next hmarks =>
      obtain ⟨rfl, rfl, rfl⟩ := hmarks
      have hrecord : ∀ stage : Stage, code = stage.code →
          ∃ stage n, -2 ^ 31 ≤ n ∧ n < 2 ^ 31 ∧ pipe.take 8 = record stage n := by
        rintro stage rfl
        refine ⟨stage, _, hlow, hhigh, ?_⟩
        rw [hbytes, record, herrno]
        rfl
      dsimp only at h
      split at h
      · next hcode => exact hrecord .cwd hcode.1
      · split at h
        · next hcode => exact hrecord .exec hcode.1
        · split at h
          · next hcode => exact hrecord .privdrop hcode.1
          · split at h
            · next hcode => exact hrecord .cgroup hcode.1
            · split at h
              · next hcode => exact hrecord .pty hcode.1
              · exact absurd rfl h
    · exact absurd rfl h
  · exact absurd rfl h

lemma write_complete {writing : Writing} (h : writing.complete = true) :
    write stage n writing = (record stage n, .ok ()) := by
  induction writing with
  | interrupted rest ih => exact ih h
  | wrote count =>
    obtain rfl : count = 8 := of_decide_eq_true h
    rfl
  | failed errno => cases h

lemma write_incomplete {writing : Writing} (h : writing.complete = false) :
    (write stage n writing).1.length < 8 ∧ ∃ e, (write stage n writing).2 = .error e := by
  induction writing with
  | interrupted rest ih => exact ih h
  | wrote count =>
    have hcount : count ≠ 8 := of_decide_eq_false h
    rw [write, if_neg hcount]
    refine ⟨?_, _, rfl⟩
    have hle : count.val ≠ 8 := fun heq => hcount (Fin.ext heq)
    rw [List.length_take, length_record]
    omega
  | failed errno => exact ⟨by simp [write], _, rfl⟩

lemma andThen_ok {a b : Hook} (h : a = ([], .ok ())) : a.andThen b = b := by
  rw [h, Hook.andThen]
  exact Prod.ext (List.nil_append _) rfl

lemma andThen_error {a b : Hook} {e : RawError} (h : a.2 = .error e) :
    a.andThen b = (a.1, .error e) := by
  rw [Hook.andThen, h]

lemma andThen_assoc (a b c : Hook) : (a.andThen b).andThen c = a.andThen (b.andThen c) := by
  obtain ⟨pa, ra⟩ := a
  obtain ⟨pb, rb⟩ := b
  cases ra with
  | error e => rfl
  | ok =>
    cases rb with
    | error e => rfl
    | ok => simp [Hook.andThen]

lemma done_andThen (b : Hook) : Hook.done.andThen b = b :=
  andThen_ok rfl

def ChildSetup.perform (setup : ChildSetup) (os : Os) : List Step → Hook
  | [] => setup.readyForExec os
  | step :: steps => (setup.check os step.stage (os.result step)).andThen (setup.perform os steps)

lemma apply_perform (setup : ChildSetup) (os : Os) :
    setup.apply os = setup.perform os setup.steps := by
  obtain ⟨cwd, reporter, plan, placement, pty, winsize⟩ := setup
  rw [ChildSetup.apply, ChildSetup.steps]
  cases cwd <;> cases plan <;> cases placement <;> cases pty <;> cases winsize <;>
    simp [ChildSetup.perform, Step.stage, Os.result, andThen_assoc, done_andThen]

lemma check_ok {step : Step} (h : os.result step = .ok ()) :
    setup.check os step.stage (os.result step) = ([], .ok ()) := by
  rw [h, ChildSetup.check]
  split <;> rfl

lemma check_error {step : Step} {e : RawError} (h : os.result step = .error e) :
    setup.check os step.stage (os.result step) =
      (if setup.reporter then (write step.stage e.errno (os.write step.stage e.errno)).1 else [],
        .error e) := by
  rw [h, ChildSetup.check]
  split <;> rfl

lemma perform_ok {steps : List Step} (h : ∀ step ∈ steps, os.result step = .ok ()) :
    setup.perform os steps = setup.readyForExec os := by
  induction steps with
  | nil => rfl
  | cons step steps ih =>
    have hstep := @check_ok setup os step (h step List.mem_cons_self)
    rw [ChildSetup.perform, andThen_ok hstep]
    exact ih fun step hin => h step (List.mem_cons_of_mem _ hin)

lemma perform_error {before after : List Step} {step : Step} {e : RawError}
    (hbefore : ∀ step ∈ before, os.result step = .ok ()) (h : os.result step = .error e) :
    setup.perform os (before ++ step :: after) =
      (if setup.reporter then (write step.stage e.errno (os.write step.stage e.errno)).1 else [],
        .error e) := by
  induction before with
  | nil =>
    rw [List.nil_append, ChildSetup.perform, check_error h]
    exact andThen_error rfl
  | cons first before ih =>
    have hfirst := @check_ok setup os first (hbefore first List.mem_cons_self)
    rw [List.cons_append, ChildSetup.perform, andThen_ok hfirst]
    exact ih fun step hin => hbefore step (List.mem_cons_of_mem _ hin)

lemma first_failure (os : Os) (steps : List Step) :
    (∀ step ∈ steps, os.result step = .ok ()) ∨
      ∃ before step after e, steps = before ++ step :: after ∧
        (∀ step ∈ before, os.result step = .ok ()) ∧ os.result step = .error e := by
  induction steps with
  | nil => exact .inl (by simp)
  | cons step steps ih =>
    cases hstep : os.result step with
    | error e => exact .inr ⟨[], step, steps, e, rfl, by simp, hstep⟩
    | ok =>
      rcases ih with h | ⟨before, next, after, e, rfl, hbefore, hnext⟩
      · exact .inl (List.forall_mem_cons.mpr ⟨hstep, h⟩)
      · exact .inr ⟨step :: before, next, after, e, rfl,
          List.forall_mem_cons.mpr ⟨hstep, hbefore⟩, hnext⟩

lemma outcome_ok (h : ∀ step ∈ setup.steps, os.result step = .ok ()) (hr : setup.reporter = true)
    {exec : RawError} (hw : (os.write .exec 0).complete = true) :
    (Attempt.forked exec).outcome setup os = (record .exec 0, exec) := by
  rw [Attempt.outcome, apply_perform, perform_ok h, ChildSetup.readyForExec, if_pos hr,
    write_complete hw]

lemma outcome_error {before after : List Step} {step : Step} {e exec : RawError}
    (hsteps : setup.steps = before ++ step :: after)
    (hbefore : ∀ step ∈ before, os.result step = .ok ()) (h : os.result step = .error e)
    (hr : setup.reporter = true) : (Attempt.forked exec).outcome setup os =
      ((write step.stage e.errno (os.write step.stage e.errno)).1, ⟨some e.errno⟩) := by
  rw [Attempt.outcome, apply_perform, hsteps, perform_error hbefore h, if_pos hr]
  rfl

lemma stage_not_exec (step : Step) : step.stage ≠ .exec := by
  cases step <;> simp [Step.stage]

lemma reportedStage_short (h : pipe.length < 8) : reportedStage pipe error = .spawn := by
  by_contra hne
  obtain ⟨stage, n, -, -, hpipe⟩ := reportedStage_whole hne
  have hlength := congrArg List.length hpipe
  rw [List.length_take, length_record] at hlength
  omega

lemma named_exec (h : named error stage n = .exec) : stage = .exec ∧ n = 0 := by
  cases stage with
  | spawn => cases h
  | exec =>
    rw [named] at h
    split at h
    · next hn => exact ⟨rfl, hn⟩
    · cases h
  | cwd | privdrop | cgroup | pty =>
    rw [named] at h
    split at h <;> cases h

lemma reportedStage_exec (h : reportedStage pipe error = .exec) : pipe.take 8 = record .exec 0 := by
  obtain ⟨stage, n, hlow, hhigh, hpipe⟩ := reportedStage_whole (by rw [h]; simp)
  rw [reportedStage_record hpipe hlow hhigh] at h
  obtain ⟨rfl, rfl⟩ := named_exec h
  exact hpipe

lemma record_stage {other : Stage} {m : ℤ} (h : record stage n = record other m) :
    stage = other := by
  have htake := congrArg (fun bytes => bytes.take 3) h
  have hcode : stage.code = other.code := by simpa [record] using htake
  cases stage <;> cases other <;> first | rfl | exact absurd hcode (by decide)

lemma write_report (stage : Stage) (n : ℤ) (writing : Writing) :
    (write stage n writing).1 = record stage n ∨ (write stage n writing).1.length < 8 := by
  cases h : writing.complete with
  | true =>
    rw [write_complete h]
    exact .inl rfl
  | false => exact .inr (write_incomplete h).1

lemma write_not_exec (h : stage ≠ .exec) (writing : Writing) :
    reportedStage (write stage n writing).1 error ≠ .exec := by
  intro hexec
  have hpipe := reportedStage_exec hexec
  rcases write_report stage n writing with hw | hw
  · rw [hw, List.take_of_length_le (length_record stage n).le] at hpipe
    exact h (record_stage hpipe)
  · cases (reportedStage_short hw).symm.trans hexec

lemma exec_named (attempt : Attempt) (hr : setup.reporter = true) :
    (finishSpawn setup os attempt argv0 cwd cgroup).stage = .exec ↔
      (∃ exec, attempt = .forked exec) ∧ (∀ step ∈ setup.steps, os.result step = .ok ()) ∧
        (os.write .exec 0).complete = true := by
  rw [finishSpawn, if_pos hr, failure]
  dsimp only
  cases attempt with
  | unforked error =>
    have hspawn : reportedStage [] error = .spawn := reportedStage_short (Nat.zero_lt_succ 7)
    refine iff_of_false ?_ ?_
    · intro hexec
      cases hspawn.symm.trans hexec
    · rintro ⟨⟨exec, h⟩, -⟩
      cases h
  | forked exec =>
    rcases first_failure os setup.steps with hall | ⟨before, step, after, e, hsteps, hbefore, hstep⟩
    · cases hw : (os.write .exec 0).complete with
      | true =>
        rw [outcome_ok hall hr hw]
        refine iff_of_true ?_ ⟨⟨exec, rfl⟩, hall, rfl⟩
        exact reportedStage_record (List.take_of_length_le (length_record _ _).le)
          (by decide) (by decide)
      | false =>
        obtain ⟨hshort, e, herror⟩ := @write_incomplete .exec 0 _ hw
        have hpipe : ((Attempt.forked exec).outcome setup os).1 =
            (write .exec 0 (os.write .exec 0)).1 := by
          rw [Attempt.outcome, apply_perform, perform_ok hall, ChildSetup.readyForExec, if_pos hr]
          split <;> simp_all
        rw [hpipe, reportedStage_short hshort]
        simp
    · have hfails : ¬∀ step ∈ setup.steps, os.result step = .ok () := by
        intro hall
        have hin : step ∈ setup.steps := by
          rw [hsteps]
          exact List.mem_append_right _ List.mem_cons_self
        cases (hall step hin).symm.trans hstep
      rw [outcome_error hsteps hbefore hstep hr]
      refine iff_of_false (write_not_exec (stage_not_exec step) _) ?_
      exact fun h => hfails h.2.1

/-- The stage and the path of a failed spawn. -/
theorem spawn_attributed (setup : ChildSetup) (os : Os) (attempt : Attempt) (argv0 : String)
    (cwd cgroup : Option String) :
    let failed := finishSpawn setup os attempt argv0 cwd cgroup
    -- the first step that fails, with its report
    (∀ before step after e exec, attempt = .forked exec → setup.steps = before ++ step :: after →
      (∀ step ∈ before, os.result step = .ok ()) → os.result step = .error e → 0 < e.errno →
      e.errno < 2 ^ 31 → setup.reporter = true → (os.write step.stage e.errno).complete = true →
        failed.stage = step.stage) ∧
    -- the mark before exec
    (setup.reporter = true → failed.path = failed.stage.path argv0 cwd cgroup ∧
      (failed.stage = .exec ↔ (∃ exec, attempt = .forked exec) ∧
        (∀ step ∈ setup.steps, os.result step = .ok ()) ∧ (os.write .exec 0).complete = true)) ∧
    (setup.reporter = false → failed.stage = .spawn ∧ failed.path = none) ∧
    -- whatever the pipe holds
    (∀ pipe error, (¬∃ stage n, -2 ^ 31 ≤ n ∧ n < 2 ^ 31 ∧ pipe.take 8 = record stage n) →
      (failure pipe error argv0 cwd cgroup).stage = .spawn) ∧
    (∀ pipe error stage n, -2 ^ 31 ≤ n → n < 2 ^ 31 → pipe.take 8 = record stage n →
      error.rawOsError ≠ some n → ¬(stage = .exec ∧ n = 0) →
      (failure pipe error argv0 cwd cgroup).stage = .spawn) ∧
    ∀ pipe error, (failure pipe error argv0 cwd cgroup).path =
      (failure pipe error argv0 cwd cgroup).stage.path argv0 cwd cgroup := by
  refine ⟨?_, fun hr => ⟨?_, exec_named attempt hr⟩, ?_, ?_, ?_,
    fun pipe error => failure_path pipe error _ _ _⟩
  · rintro before step after e exec rfl hsteps hbefore hstep hpos hhigh hr hw
    have hlow : -2 ^ 31 ≤ e.errno := by omega
    have hpipe : (write step.stage e.errno (os.write step.stage e.errno)).1.take 8 =
        record step.stage e.errno := by
      rw [write_complete hw]
      exact List.take_of_length_le (length_record _ _).le
    rw [finishSpawn, if_pos hr, outcome_error hsteps hbefore hstep hr, failure,
      reportedStage_record hpipe hlow hhigh]
    cases step <;> simp [Step.stage, named, hpos]
  · rw [finishSpawn, if_pos hr]
    exact failure_path _ _ _ _ _
  · intro hr
    rw [finishSpawn, hr]
    exact ⟨rfl, rfl⟩
  · intro pipe error hnone
    by_contra hne
    exact hnone (reportedStage_whole hne)
  · intro pipe error stage n hlow hhigh hpipe herrno hmark
    have hstage : (failure pipe error argv0 cwd cgroup).stage = named error stage n :=
      reportedStage_record hpipe hlow hhigh
    rw [hstage]
    cases stage with
    | spawn => rfl
    | exec => exact if_neg fun hn => hmark ⟨rfl, hn⟩
    | cwd | privdrop | cgroup | pty => exact if_neg fun h => herrno h.2

/-- A working directory that is a file. -/
theorem spawn_attributed_cwd :
    let setup : ChildSetup := ⟨some "a-file", true, false, false, false, none⟩
    let os : Os := ⟨fun _ => .error ⟨some 20⟩, .ok (), .ok (), fun _ => .ok (), .ok (), .ok (),
      fun _ _ => .interrupted (.wrote 8)⟩
    (finishSpawn setup os (.forked ⟨none⟩) "echo" (some "a-file") none).stage = .cwd :=
  (spawn_attributed _ _ _ "echo" (some "a-file") none).1 [] (.chdir "a-file") [.setsid] ⟨some 20⟩
    ⟨none⟩ rfl rfl (by simp) rfl (by decide) (by decide) rfl rfl

end Forcola.Native.SpawnError
