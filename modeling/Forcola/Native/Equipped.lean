import Forcola.Native.Startup

/-! A child reaches its command only with everything that its request asks for in place. -/

namespace Forcola.Native.Startup

open Privdrop (Installed matched_sound planFromCurrent resolve resolveCredentials)
open Protocol
open SpawnError (ChildSetup Step first_failure apply_perform perform_error)

/-- What had gone well before the child with this pid reached its command. -/
structure Equipped (os : Os σ) (request : SpawnRequest) (pid : ℕ) : Prop where
  argv : request.argv ≠ []
  spawned : os.spawning = .forked pid none
  cd : ∀ cd ∈ request.cd, os.child.chdir cd = .ok ()
  session : os.child.setsid = .ok ()
  terminal : request.pty = true → os.openPty = .ok () ∧ os.child.tiocsctty = .ok () ∧
    ∀ winsize ∈ windowSize request, os.child.tcsetwinsize winsize = .ok ()
  joined : request.cgroup = .required → os.child.joinInChild = .ok ()
  resolved : ∃ creds, resolveCredentials os.accounts request.user request.group = .ok creds
  dropped : ∀ creds, resolveCredentials os.accounts request.user request.group =
    .ok (some creds) → ∃ child,
      ((planFromCurrent os.process creds).apply os.kernel os.process).2 = .ok child ∧
      ((creds.uid = some os.process.uid.real →
          os.process.uid.effective = os.process.uid.real) →
        (creds.gid = os.process.gid.real → os.process.gid.effective = os.process.gid.real) →
        Installed creds os.process child.exec)

def Forkless (effects : List Effect) : Prop :=
  ∀ pid, Effect.fork pid ∉ effects

variable {σ : Type} {os : Os σ} {a b effects ending : List Effect} {r : Result σ}
  {request : SpawnRequest} {setup : ChildSetup} {pid : ℕ}

lemma forkless_append (ha : Forkless a) (hb : Forkless b) : Forkless (a ++ b) := by
  intro pid hin
  rcases List.mem_append.mp hin with hin | hin
  · exact ha pid hin
  · exact hb pid hin

lemma forkless_calls (calls : List Supervisor.GroupCall) : Forkless (calls.map .call) := by
  intro pid hin
  obtain ⟨call, -, hcall⟩ := List.mem_map.mp hin
  cases hcall

lemma forkless_frames (frames : List Frame) : Forkless (frames.map .sent) := by
  intro pid hin
  obtain ⟨frame, -, hframe⟩ := List.mem_map.mp hin
  cases hframe

lemma forkless_ignored (frame : Frame) : Forkless (ignored os frame) := by
  intro pid
  rw [ignored]
  split <;> simp

lemma forkless_ending (cfg : Supervisor.Config) (h : Forkless ending) :
    Forkless (endingOf cfg ending) := by
  refine forkless_append h ?_
  intro pid
  split <;> simp

lemma abortStartup_forkless (os : Os σ) (cfg : Supervisor.Config) (tracker : Option (Tracker σ))
    (ok : Bool) (h : Forkless ending) : Forkless (abortStartup os cfg tracker ending ok).1 := by
  have hending := forkless_ending cfg h
  have hfinish : Forkless (finishCgroup os cfg) := forkless_calls _
  cases tracker with
  | none =>
    have hkill : Forkless [.call (.signal SIGKILL)] := by simp [Forkless]
    have hreap : Forkless [.reap] := by simp [Forkless]
    have hcgroup := forkless_calls (Supervisor.killCgroup cfg)
    exact forkless_append (forkless_append (forkless_append
      (forkless_append hkill hcgroup) hreap) hfinish) hending
  | some tracker =>
    have hkill : Forkless (killUnknown tracker) := by
      rw [killUnknown]
      split <;> simp [Forkless]
    rw [abortStartup_tracked]
    refine forkless_append hkill ?_
    cases abortTracked os cfg tracker with
    | none => simp [Forkless, abortCleaned]
    | some looped =>
      obtain ⟨gone, tracker⟩ := looped
      rw [abortCleaned_some]
      refine forkless_append (forkless_append ?_ hfinish) hending
      intro pid
      cases gone <;> simp

lemma superviseChild_forkless (os : Os σ) (selected : SelectedFeatures) (request : SpawnRequest)
    (cfg : Supervisor.Config) (tracker : Option (Tracker σ)) :
    Forkless (superviseChild os selected request cfg tracker).1 := by
  have hnil : Forkless [] := by simp [Forkless]
  rw [superviseChild]
  split
  · cases tracker with
    | none => exact forkless_ending cfg hnil
    | some tracker => exact abortStartup_forkless os cfg _ false hnil
  · simp [Forkless]

lemma reportChild_forkless (os : Os σ) (selected : SelectedFeatures) (request : SpawnRequest)
    (cfg : Supervisor.Config) (shim : Option ProcessIdentity) (id : ProcessIdentity) :
    Forkless (reportChild os selected request cfg shim id).1 := by
  rw [reportChild]
  refine forkless_append (forkless_frames _) ?_
  split
  · exact superviseChild_forkless os selected request cfg _
  · exact abortStartup_forkless os cfg _ false (by simp [Forkless])

lemma afterSpawn_forkless (os : Os σ) (selected : SelectedFeatures) (request : SpawnRequest)
    (shim : Option ProcessIdentity) (pid : ℕ) (cfg : Supervisor.Config) :
    Forkless (afterSpawn os selected request shim pid cfg).1 := by
  rw [afterSpawn]
  split
  · split
    · exact abortStartup_forkless os cfg _ true (forkless_ignored _)
    · exact reportChild_forkless os selected request cfg shim _
  · exact superviseChild_forkless os selected request cfg none

lemma apply_ok {child : SpawnError.Os} (h : (setup.apply child).2 = .ok ()) :
    ∀ step ∈ setup.steps, child.result step = .ok () := by
  rcases first_failure child setup.steps with hall | ⟨before, step, after, e, hsteps, hbefore, he⟩
  · exact hall
  · rw [apply_perform, hsteps, perform_error hbefore he] at h
    cases h

lemma finishSpawn_ok {plan : Option Privdrop.DropPlan} {argv0 : String} {path : Option String}
    (h : finishSpawn os request setup plan argv0 path = .ok pid) :
    os.spawning = .forked pid none ∧
      (∀ step ∈ setup.steps, (os.childOs plan).result step = .ok ()) ∧
      (setup.reporter = false → ∀ cd ∈ request.cd, os.child.chdir cd = .ok ()) := by
  rw [finishSpawn] at h
  dsimp only at h
  split at h
  · cases h
  · next forked exec hforked =>
    split at h
    · cases h
    · next hcd =>
      split at h
      · next hsetup =>
        cases h
        refine ⟨hforked, apply_ok hsetup, ?_⟩
        intro hreporter cd hin
        rw [hreporter, Option.mem_def.mp hin] at hcd
        exact hcd
      · cases h

lemma childCwd_ok {structured : Bool} {cwd : Option String}
    (h : childCwd request structured = .ok cwd) : cwd = if structured then request.cd else none := by
  rw [childCwd] at h
  split at h
  · next hstructured =>
    rw [if_pos hstructured]
    split at h
    · next hcd =>
      cases h
      exact hcd.symm
    · next cd hcd =>
      split at h
      · cases h
      · cases h
        exact hcd.symm
  · next hstructured =>
    rw [if_neg hstructured]
    cases h
    rfl

lemma spawnPrepared_ok {structured : Bool} {plan : Option Privdrop.DropPlan}
    {cgroup : Option String} {argv0 : String}
    (h : spawnPrepared os request structured plan cgroup argv0 = .ok pid) :
    os.spawning = .forked pid none ∧ (request.pty = true → os.openPty = .ok ()) ∧
      (structured = false → ∀ cd ∈ request.cd, os.child.chdir cd = .ok ()) ∧
      ∀ step ∈ ChildSetup.steps
        { cwd := if structured then request.cd else none, reporter := structured,
          plan := plan.isSome, placement := cgroup.isSome, pty := request.pty,
          winsize := windowSize request }, (os.childOs plan).result step = .ok () := by
  rw [spawnPrepared] at h
  split at h
  · cases h
  · next hpty =>
    split at h
    · cases h
    · split at h
      · cases h
      · next cwd hcwd =>
        obtain ⟨hspawning, hsteps, hcd⟩ := finishSpawn_ok h
        rw [childCwd_ok hcwd] at hsteps
        refine ⟨hspawning, ?_, hcd, hsteps⟩
        intro hrequested
        rw [if_pos hrequested] at hpty
        exact hpty

lemma prepareCgroup_forkless (os : Os σ) (mode : CgroupMode) :
    Forkless (prepareCgroup os mode).1 := by
  obtain ⟨effects, result, heq, heffects, -⟩ | ⟨dir, heq⟩ := prepareCgroup_cases os mode
  · rw [heq]
    obtain rfl | ⟨dir, rfl⟩ := heffects <;> simp [Forkless]
  · rw [heq]
    simp [Forkless]

lemma prepareCgroup_required {cgroup : Option String}
    (h : prepareCgroup os .required = (effects, .ok cgroup)) :
    ∃ dir, cgroup = some dir ∧ effects = [.makeDir dir] := by
  obtain ⟨other, result, heq, -, hnone⟩ | ⟨dir, heq⟩ := prepareCgroup_cases os .required
  · rw [h] at heq
    obtain ⟨-, rfl⟩ := Prod.mk.inj heq
    exact absurd rfl (hnone cgroup rfl).2
  · rw [h] at heq
    cases heq
    exact ⟨dir, rfl, rfl⟩

lemma spawnChild_forkless {structured : Bool} {failure : Failure}
    (h : spawnChild os request structured = (effects, .error failure)) : Forkless effects := by
  have hnil : Forkless [] := by simp [Forkless]
  rw [spawnChild] at h
  split at h
  · cases h
    exact hnil
  · split at h
    · cases h
      exact hnil
    · have hprepare := prepareCgroup_forkless os request.cgroup
      split at h
      · next heq =>
        rw [heq] at hprepare
        cases h
        exact hprepare
      · next cgroup heq =>
        rw [heq] at hprepare
        split at h
        · cases h
          refine forkless_append hprepare ?_
          intro pid
          rw [dropCgroup]
          split <;> simp
        · cases h

lemma dropped_ok {plan : Option Privdrop.DropPlan}
    (hplan : resolve os.accounts os.process request.user request.group = .ok plan)
    (h : plan.isSome = true → (os.childOs plan).applyPlan = .ok ()) :
    (∃ creds, resolveCredentials os.accounts request.user request.group = .ok creds) ∧
      ∀ creds, resolveCredentials os.accounts request.user request.group = .ok (some creds) →
        ∃ child, ((planFromCurrent os.process creds).apply os.kernel os.process).2 = .ok child ∧
          ((creds.uid = some os.process.uid.real →
              os.process.uid.effective = os.process.uid.real) →
            (creds.gid = os.process.gid.real →
              os.process.gid.effective = os.process.gid.real) →
            Installed creds os.process child.exec) := by
  constructor
  · rw [resolve] at hplan
    cases hcreds : resolveCredentials os.accounts request.user request.group with
    | error e =>
      rw [hcreds] at hplan
      cases hplan
    | ok creds => exact ⟨creds, rfl⟩
  · intro creds hcreds
    rw [Privdrop.resolve_plan hcreds] at hplan
    obtain rfl := Except.ok.inj hplan
    have happlied := h rfl
    simp only [Os.childOs] at happlied
    split at happlied
    · next child hchild =>
      refine ⟨child, hchild, fun hu hg => ?_⟩
      exact (matched_sound os.kernel (.ok ()) hu hg).installed child hchild
    · cases happlied

lemma spawnChild_ok {structured : Bool} {cgroup : Option String}
    (h : spawnChild os request structured = (effects, .ok (pid, cgroup))) :
    Equipped os request pid ∧ (∀ other, Effect.fork other ∈ effects → other = pid) ∧
      (request.cgroup = .required → ∃ dir, effects = [.makeDir dir, .fork pid]) := by
  rw [spawnChild] at h
  split at h
  · cases h
  · next argv0 rest hargv =>
    split at h
    · cases h
    · next plan hplan =>
      have hforkless := prepareCgroup_forkless os request.cgroup
      split at h
      · cases h
      · next made prepared heq =>
        rw [heq] at hforkless
        split at h
        · cases h
        · next forked hprepared =>
          cases h
          obtain ⟨hspawning, hpty, hcd, hsteps⟩ := spawnPrepared_ok hprepared
          have hdropped : plan.isSome = true → (os.childOs plan).applyPlan = .ok () := by
            intro hsome
            exact hsteps .applyPlan (by simp [ChildSetup.steps, hsome])
          obtain ⟨hresolved, hinstalled⟩ := dropped_ok hplan hdropped
          refine ⟨⟨by simp [hargv], hspawning, ?_, ?_, ?_, ?_, hresolved, hinstalled⟩, ?_, ?_⟩
          · intro cd hin
            cases structured with
            | false => exact hcd rfl cd hin
            | true =>
              exact hsteps (.chdir cd) (by simp [ChildSetup.steps, Option.mem_def.mp hin])
          · exact hsteps .setsid (by simp [ChildSetup.steps])
          · intro hrequested
            refine ⟨hpty hrequested, ?_, ?_⟩
            · exact hsteps .tiocsctty (by simp [ChildSetup.steps, hrequested])
            · intro winsize hin
              refine hsteps (.tcsetwinsize winsize) ?_
              simp [ChildSetup.steps, hrequested, Option.mem_def.mp hin]
          · intro hrequired
            rw [hrequired] at heq
            obtain ⟨dir, rfl, -⟩ := prepareCgroup_required heq
            exact hsteps .joinInChild (by simp [ChildSetup.steps])
          · intro other hin
            rcases List.mem_append.mp hin with hin | hin
            · exact absurd hin (hforkless other)
            · simpa using hin
          · intro hrequired
            rw [hrequired] at heq
            obtain ⟨dir, -, rfl⟩ := prepareCgroup_required heq
            exact ⟨dir, rfl⟩

lemma spawnRequested_fork {selected : SelectedFeatures} {payload : Bytes}
    (h : Effect.fork pid ∈ (spawnRequested os selected payload).1) :
    ∃ request, os.serde.spawn payload = .ok request ∧ interruptValid request = true ∧
      Equipped os request pid ∧ (request.cgroup = .required → ∃ dir,
        [.makeDir dir, .fork pid] <+: (spawnRequested os selected payload).1) := by
  revert h
  rw [spawnRequested]
  split
  · intro h
    exact absurd h (forkless_ignored _ pid)
  · next request hrequest =>
    split
    · intro h
      exact absurd h (forkless_ignored _ pid)
    · next hvalid =>
      split
      · intro h
        exact absurd h (forkless_ignored _ pid)
      · split
        · next heq =>
          intro h
          rcases List.mem_append.mp h with h | h
          · exact absurd h (spawnChild_forkless heq pid)
          · exact absurd h (forkless_ignored _ pid)
        · next effects forked cgroup heq =>
          intro h
          obtain ⟨hequipped, hsole, hrequired⟩ := spawnChild_ok heq
          obtain rfl : pid = forked := by
            rcases List.mem_append.mp h with h | h
            · exact hsole pid h
            · exact absurd h (afterSpawn_forkless os _ _ _ _ _ pid)
          refine ⟨request, hrequest, by simpa using hvalid, hequipped, ?_⟩
          intro hmode
          obtain ⟨dir, rfl⟩ := hrequired hmode
          exact ⟨dir, List.prefix_append _ _⟩

lemma awaitSpawn_fork {selected : SelectedFeatures} {arrivals : List Arrival}
    (h : Effect.fork pid ∈ (awaitSpawn os selected arrivals).1) :
    ∃ payload request, Arrival.frame tagSpawn payload ∈ arrivals ∧
      os.serde.spawn payload = .ok request ∧ interruptValid request = true ∧
      Equipped os request pid ∧ (request.cgroup = .required → ∃ dir,
        [.makeDir dir, .fork pid] <+: (awaitSpawn os selected arrivals).1) := by
  cases arrivals with
  | nil => cases h
  | cons arrival arrivals =>
    cases arrival with
    | eof => cases h
    | failed => cases h
    | frame tag payload =>
      revert h
      rw [awaitSpawn]
      split
      · next htag =>
        intro h
        obtain ⟨request, hrequest, hvalid, hequipped, hrequired⟩ := spawnRequested_fork h
        exact ⟨payload, request, by simp [htag], hrequest, hvalid, hequipped, hrequired⟩
      · intro h
        exact absurd h (forkless_ignored _ pid)

/-- A child is there only for a SPAWN that came in, and it reached its command with its directory,
session, terminal, cgroup and credentials as requested. -/
theorem forked_equipped (os : Os σ) (arrivals : List Arrival) (pid : ℕ)
    (h : Effect.fork pid ∈ (runWithCapabilities os arrivals).1) :
    ∃ payload request, Arrival.frame tagSpawn payload ∈ arrivals ∧
      os.serde.spawn payload = .ok request ∧ interruptValid request = true ∧
      Equipped os request pid ∧ (request.cgroup = .required → ∃ dir,
        [.makeDir dir, .fork pid] <:+: (runWithCapabilities os arrivals).1) := by
  have hplain (h : Effect.fork pid ∈ (awaitSpawn os noFeatures arrivals).1) :
      ∃ payload request, Arrival.frame tagSpawn payload ∈ arrivals ∧
        os.serde.spawn payload = .ok request ∧ interruptValid request = true ∧
        Equipped os request pid ∧ (request.cgroup = .required → ∃ dir,
          [.makeDir dir, .fork pid] <:+: (awaitSpawn os noFeatures arrivals).1) := by
    obtain ⟨payload, request, hin, hrequest, hvalid, hequipped, hrequired⟩ := awaitSpawn_fork h
    refine ⟨payload, request, hin, hrequest, hvalid, hequipped, fun hmode => ?_⟩
    obtain ⟨dir, hdir⟩ := hrequired hmode
    exact ⟨dir, hdir.isInfix⟩
  cases arrivals with
  | nil => exact hplain h
  | cons arrival rest =>
    cases arrival with
    | eof => exact hplain h
    | failed => exact hplain h
    | frame tag payload =>
      revert h hplain
      rw [runWithCapabilities]
      split
      · intro h _
        revert h
        dsimp only
        split
        · intro h
          exact absurd h (forkless_ignored _ pid)
        · split
          · intro h
            rcases List.mem_append.mp h with h | h
            · simp at h
            obtain ⟨payload, request, hin, hrequest, hvalid, hequipped, hrequired⟩ :=
              awaitSpawn_fork h
            refine ⟨payload, request, List.mem_cons_of_mem _ hin, hrequest, hvalid, hequipped, ?_⟩
            intro hmode
            obtain ⟨dir, hdir⟩ := hrequired hmode
            exact ⟨dir, hdir.isInfix.trans (List.suffix_append _ _).isInfix⟩
          · intro h
            cases h
      · intro h hplain
        exact hplain h

/-- The child of the required cgroup, which gave up root. -/
theorem forked_equipped_muted : ∃ payload request, Arrival.frame tagSpawn payload ∈ mutedArrivals ∧
    mutedOs.serde.spawn payload = .ok request ∧ interruptValid request = true ∧
    Equipped mutedOs request 9 ∧ (request.cgroup = .required → ∃ dir,
      [.makeDir dir, .fork 9] <:+: (runWithCapabilities mutedOs mutedArrivals).1) :=
  forked_equipped mutedOs mutedArrivals 9 (by decide +kernel)

end Forcola.Native.Startup
