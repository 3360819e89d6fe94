import Forcola.Library.Posix
import Forcola.Native.Identity
import Mathlib.Data.List.Sublists

/-! Dropping the child to a different user or group between fork and exec. -/

namespace Forcola.Native.Privdrop

open Posix

inductive UserSpec
  | name (name : String)
  | id (uid : ℕ)
deriving DecidableEq, Repr

inductive GroupSpec
  | name (name : String)
  | id (gid : ℕ)
deriving DecidableEq, Repr

inductive ResolveError
  | lookup (errno : Errno)
  | notFound (message : String)
  | invalidInput (message : String)
deriving DecidableEq, Repr

structure Credentials where
  uid : Option ℕ
  gid : ℕ
  groups : List ℕ
  groupRequested : Bool
deriving DecidableEq, Repr

structure DropPlan where
  groups : Option (List ℕ)
  gid : Option ℕ
  uid : Option ℕ
deriving DecidableEq, Repr

structure ResolvedUser where
  uid : ℕ
  primaryGid : ℕ
  supplementary : List ℕ

structure Accounts where
  getpwnam : String → Except Errno (Option (ℕ × ℕ))
  getpwuid : ℕ → Except Errno (Option (String × ℕ))
  getgrnam : String → Except Errno (Option ℕ)
  getgrouplist : String → ℕ → Except Errno (List ℕ)

def lookup {α : Type} (answer : Except Errno α) : Except ResolveError α :=
  match answer with
  | .ok value => .ok value
  | .error errno => .error (.lookup errno)

def cstring (s : String) : Except ResolveError String :=
  if s.contains '\x00' then
    .error (.invalidInput "user/group name contains an interior NUL byte")
  else .ok s

def getgrouplist (db : Accounts) (name : String) (primaryGid : ℕ) : Except ResolveError (List ℕ) :=
  if name = "" then .ok [] else lookup (db.getgrouplist name primaryGid)

def supplementaryGroups (user : ResolvedUser) (effectiveGid : ℕ) : List ℕ :=
  if user.supplementary.contains effectiveGid then user.supplementary
  else user.supplementary ++ [effectiveGid]

def resolveUser (db : Accounts) : UserSpec → Except ResolveError ResolvedUser
  | .name name => do
    let cname ← cstring name
    match ← lookup (db.getpwnam cname) with
    | none => .error (.notFound s!"unknown user: {name}")
    | some (uid, primaryGid) =>
      let supplementary ← getgrouplist db cname primaryGid
      .ok ⟨uid, primaryGid, supplementary⟩
  | .id uid => do
    match ← lookup (db.getpwuid uid) with
    | some (name, primaryGid) =>
      let supplementary ← getgrouplist db name primaryGid
      .ok ⟨uid, primaryGid, supplementary⟩
    | none => .ok ⟨uid, uid, []⟩

def resolveGid (db : Accounts) : GroupSpec → Except ResolveError ℕ
  | .name name => do
    let cname ← cstring name
    match ← lookup (db.getgrnam cname) with
    | none => .error (.notFound s!"unknown group: {name}")
    | some gid => .ok gid
  | .id gid => .ok gid

def resolveCredentials (db : Accounts) (user : Option UserSpec) (group : Option GroupSpec) :
    Except ResolveError (Option Credentials) :=
  match user, group with
  | none, none => .ok none
  | none, some group => do
    let gid ← resolveGid db group
    .ok (some ⟨none, gid, [gid], true⟩)
  | some user, group => do
    let resolved ← resolveUser db user
    let gid ← match group with
      | some group => resolveGid db group
      | none => .ok resolved.primaryGid
    .ok (some ⟨some resolved.uid, gid, supplementaryGroups resolved gid, group.isSome⟩)

/-- The comparison is with `getuid` and `getgid`, the real ids. -/
def planFromCurrent (current : Process) (creds : Credentials) : DropPlan :=
  let uid := creds.uid.filter (· != current.uid.real)
  let gid := (some creds.gid).filter (· != current.gid.real)
  let groups :=
    if creds.groupRequested || uid.isSome || gid.isSome then some creds.groups else none
  ⟨groups, gid, uid⟩

def resolve (db : Accounts) (current : Process) (user : Option UserSpec)
    (group : Option GroupSpec) : Except ResolveError (Option DropPlan) := do
  match ← resolveCredentials db user group with
  | none => .ok none
  | some creds => .ok (some (planFromCurrent current creds))

namespace DropPlan

def calls (plan : DropPlan) : List Setter :=
  plan.groups.toList.map .setgroups ++ (plan.gid.toList.map .setgid ++
    plan.uid.toList.map .setuid)

def apply (plan : DropPlan) (k : Kernel Errno) (p : Process) :
    List Setter × Except Errno Process :=
  run k p plan.calls

end DropPlan

/-- `ChildSetup::apply` up to exec; the steps before the drop leave every id alone. -/
def childSetup (k : Kernel Errno) (earlier : Except Errno Unit) (plan : DropPlan) (p : Process) :
    Except Errno Process :=
  match earlier with
  | .error e => .error e
  | .ok () => (plan.apply k p).2

def order : Setter → ℕ
  | .setgroups _ => 0
  | .setgid _ => 1
  | .setuid _ => 2

def Credentials.Changes (creds : Credentials) (p : Process) : Prop :=
  (∃ uid, creds.uid = some uid ∧ (p.uid.real ≠ uid ∨ p.uid.effective ≠ uid)) ∨
    p.gid.real ≠ creds.gid ∨ p.gid.effective ≠ creds.gid

structure Installed (creds : Credentials) (p child : Process) : Prop where
  uid : child.uid.effective = creds.uid.getD p.uid.effective
  gid : child.gid.effective = creds.gid
  groups : creds.groupRequested = true ∨ creds.Changes p → child.groups = creds.groups

structure Sound (k : Kernel Errno) (earlier : Except Errno Unit) (creds : Credentials)
    (plan : DropPlan) (p : Process) : Prop where
  ordered : ((plan.apply k p).1.map order).Pairwise (· < ·)
  aborted : ∀ e, (plan.apply k p).2 = .error e → ∃ e', childSetup k earlier plan p = .error e'
  installed : ∀ p', childSetup k earlier plan p = .ok p' → Installed creds p p'.exec

def Drops (db : Accounts) (p : Process) (user : Option UserSpec) (group : Option GroupSpec) :
    Prop :=
  ∀ k earlier creds, resolveCredentials db user group = .ok (some creds) →
    ∃ plan, resolve db p user group = .ok (some plan) ∧ Sound k earlier creds plan p

/-- No requested id is only the real one. -/
def Matched (db : Accounts) (p : Process) (user : Option UserSpec) (group : Option GroupSpec) :
    Prop :=
  ∀ creds, resolveCredentials db user group = .ok (some creds) →
    (creds.uid = some p.uid.real → p.uid.effective = p.uid.real) ∧
      (creds.gid = p.gid.real → p.gid.effective = p.gid.real)

variable {k : Kernel Errno} {p p' : Process} {plan : DropPlan} {creds : Credentials}

lemma calls_ordered (plan : DropPlan) : (plan.calls.map order).Pairwise (· < ·) := by
  obtain ⟨groups, gid, uid⟩ := plan
  cases groups <;> cases gid <;> cases uid <;> simp [DropPlan.calls, order]

lemma apply_ordered (plan : DropPlan) (k : Kernel Errno) (p : Process) :
    ((plan.apply k p).1.map order).Pairwise (· < ·) := by
  have hprefix := (run_calls k p plan.calls).map order
  exact (calls_ordered plan).sublist hprefix.sublist

lemma run_setgroups {groups : Option (List ℕ)}
    (h : (run k p (groups.toList.map .setgroups)).2 = .ok p') :
    p' = { p with groups := groups.getD p.groups } := by
  cases groups with
  | none => exact (Except.ok.inj h).symm
  | some groups =>
    obtain ⟨q, hcall, hrest⟩ := run_cons h
    obtain rfl := Except.ok.inj hrest
    exact call_setgroups hcall

lemma run_setgid {gid : Option ℕ} (h : (run k p (gid.toList.map .setgid)).2 = .ok p') :
    ∃ ids, ids.effective = gid.getD p.gid.effective ∧ p' = { p with gid := ids } := by
  cases gid with
  | none => exact ⟨p.gid, rfl, (Except.ok.inj h).symm⟩
  | some gid =>
    obtain ⟨q, hcall, hrest⟩ := run_cons h
    obtain rfl := Except.ok.inj hrest
    exact call_setgid hcall

lemma run_setuid {uid : Option ℕ} (h : (run k p (uid.toList.map .setuid)).2 = .ok p') :
    ∃ ids, ids.effective = uid.getD p.uid.effective ∧ p' = { p with uid := ids } := by
  cases uid with
  | none => exact ⟨p.uid, rfl, (Except.ok.inj h).symm⟩
  | some uid =>
    obtain ⟨q, hcall, hrest⟩ := run_cons h
    obtain rfl := Except.ok.inj hrest
    exact call_setuid hcall

lemma apply_installs (h : (plan.apply k p).2 = .ok p') :
    p'.uid.effective = plan.uid.getD p.uid.effective ∧
      p'.gid.effective = plan.gid.getD p.gid.effective ∧
      p'.groups = plan.groups.getD p.groups := by
  obtain ⟨p1, h1, h23⟩ := run_append h
  obtain ⟨p2, h2, h3⟩ := run_append h23
  obtain rfl := run_setgroups h1
  obtain ⟨gid, hgid, rfl⟩ := run_setgid h2
  obtain ⟨uid, huid, rfl⟩ := run_setuid h3
  exact ⟨huid, hgid, rfl⟩

lemma plan_uid (p : Process) (creds : Credentials)
    (h : creds.uid = some p.uid.real → p.uid.effective = p.uid.real) :
    (planFromCurrent p creds).uid.getD p.uid.effective = creds.uid.getD p.uid.effective := by
  cases hu : creds.uid with
  | none => simp [planFromCurrent, hu]
  | some uid =>
    by_cases he : uid = p.uid.real
    · subst he
      simp [planFromCurrent, hu, h hu, Option.filter]
    · simp [planFromCurrent, hu, he, Option.filter]

lemma plan_gid (p : Process) (creds : Credentials)
    (h : creds.gid = p.gid.real → p.gid.effective = p.gid.real) :
    (planFromCurrent p creds).gid.getD p.gid.effective = creds.gid := by
  by_cases he : creds.gid = p.gid.real
  · simp [planFromCurrent, he, h he, Option.filter]
  · simp [planFromCurrent, he, Option.filter]

lemma plan_groups (p : Process) (creds : Credentials)
    (hu : creds.uid = some p.uid.real → p.uid.effective = p.uid.real)
    (hg : creds.gid = p.gid.real → p.gid.effective = p.gid.real)
    (h : creds.groupRequested = true ∨ creds.Changes p) :
    (planFromCurrent p creds).groups = some creds.groups := by
  have hneeded : creds.groupRequested = true ∨
      (creds.uid.filter (· != p.uid.real)).isSome = true ∨
      ((some creds.gid).filter (· != p.gid.real)).isSome = true := by
    rcases h with h | ⟨uid, huid, hne⟩ | hne
    · exact .inl h
    · refine .inr (.inl ?_)
      have hreal : uid ≠ p.uid.real := by
        rintro rfl
        exact hne.elim (fun hne => hne rfl) fun hne => hne (hu huid)
      simp [huid, hreal, Option.filter]
    · refine .inr (.inr ?_)
      have hreal : creds.gid ≠ p.gid.real := by
        intro heq
        exact hne.elim (fun hne => hne heq.symm) fun hne => hne ((hg heq).trans heq.symm)
      simp [hreal, Option.filter]
  simp only [planFromCurrent]
  rw [if_pos]
  simpa only [Bool.or_eq_true, or_assoc] using hneeded

lemma resolve_plan {db : Accounts} {user : Option UserSpec} {group : Option GroupSpec}
    (h : resolveCredentials db user group = .ok (some creds)) :
    resolve db p user group = .ok (some (planFromCurrent p creds)) := by
  rw [resolve, h]
  rfl

lemma childSetup_ok {earlier : Except Errno Unit} (h : childSetup k earlier plan p = .ok p') :
    (plan.apply k p).2 = .ok p' := by
  cases earlier with
  | error e => cases h
  | ok => exact h

lemma matched_sound (k : Kernel Errno) (earlier : Except Errno Unit)
    (hu : creds.uid = some p.uid.real → p.uid.effective = p.uid.real)
    (hg : creds.gid = p.gid.real → p.gid.effective = p.gid.real) :
    Sound k earlier creds (planFromCurrent p creds) p := by
  constructor
  · exact apply_ordered _ k p
  · intro e he
    cases earlier with
    | error e' => exact ⟨e', rfl⟩
    | ok => exact ⟨e, he⟩
  · intro p' hp'
    obtain ⟨huid, hgid, hgroups⟩ := apply_installs (childSetup_ok hp')
    constructor
    · exact huid.trans (plan_uid p creds hu)
    · exact hgid.trans (plan_gid p creds hg)
    · intro hneeded
      rw [plan_groups p creds hu hg hneeded] at hgroups
      exact hgroups

/-- The drop does what was requested exactly when no requested id is only the real one. -/
theorem drop_installs (db : Accounts) (p : Process) (user : Option UserSpec)
    (group : Option GroupSpec) : Drops db p user group ↔ Matched db p user group := by
  constructor
  · intro h creds hcreds
    -- a caller with every privilege gets through the drop
    obtain ⟨plan, hplan, hsound⟩ := h (.root .eperm) (.ok ()) creds hcreds
    rw [resolve_plan hcreds] at hplan
    obtain rfl := Option.some.inj (Except.ok.inj hplan)
    obtain ⟨p', hp'⟩ := run_root Errno.eperm p (planFromCurrent p creds).calls
    obtain ⟨huid, hgid, -⟩ := @apply_installs _ _ _ (planFromCurrent p creds) hp'
    have hinstalled := hsound.installed p' hp'
    constructor
    · intro hu
      have hskip : (planFromCurrent p creds).uid = none := by simp [planFromCurrent, hu]
      have hreal := hinstalled.uid
      rw [hu] at hreal
      rw [hskip] at huid
      exact huid.symm.trans hreal
    · intro hg
      have hskip : (planFromCurrent p creds).gid = none := by simp [planFromCurrent, hg]
      rw [hskip] at hgid
      exact hgid.symm.trans (hinstalled.gid.trans hg)
  · intro h k earlier creds hcreds
    obtain ⟨hu, hg⟩ := h creds hcreds
    exact ⟨_, resolve_plan hcreds, matched_sound k earlier hu hg⟩

def soleAccount : Accounts where
  getpwnam name := .ok (if name = "app" then some (1000, 1000) else none)
  getpwuid uid := .ok (if uid = 1000 then some ("app", 1000) else none)
  getgrnam name := .ok (if name = "app" then some 1000 else none)
  getgrouplist _ primaryGid := .ok [primaryGid]

/-- A set-user-ID root shim started by that account keeps its effective uid. -/
theorem drop_keeps_root :
    ¬Drops soleAccount ⟨⟨1000, 0, 0⟩, ⟨1000, 1000, 1000⟩, [1000]⟩ (some (.id 1000)) none := by
  intro h
  have hcreds : resolveCredentials soleAccount (some (.id 1000)) none =
      .ok (some ⟨some 1000, 1000, [1000], false⟩) := by decide
  obtain ⟨plan, hplan, hsound⟩ :=
    h ⟨fun p _ => p.uid.effective == 0, fun _ _ => none, .eperm⟩ (.ok ()) _ hcreds
  rw [resolve_plan hcreds] at hplan
  obtain rfl := Option.some.inj (Except.ok.inj hplan)
  exact absurd (hsound.installed _ rfl).uid (by decide)

end Forcola.Native.Privdrop
