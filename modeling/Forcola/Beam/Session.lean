import Forcola.Beam.Shim
import Forcola.Library.BigEndian
import Forcola.Library.Link
import Forcola.Native.ReadBudget

/-! A client and the shim it drives, joined by the two directions of a port. -/

namespace Forcola.Beam.Session

open Library Transition
open Native (Bytes Pipe Pump)
open Native.Supervisor (InFrame Config)
open Shim (Tag Command)

/-- What of a command reaches the supervisor; STDIN and EOF stop at the reader. -/
def inFrame : Command → Option InFrame
  | .credit .stdout bytes => some (.credit (Shim.encodeCredit bytes))
  | .credit .stderr bytes => some (.stderrCredit (Shim.encodeCredit bytes))
  | .kill => some .kill
  | .stdin _ | .eof => none

def outTag : Pipe → Tag
  | .stdout => .stdout
  | .stderr => .stderr

def supervised : Tag → Bool
  | .stdout | .stderr | .tracked | .exit => true
  | .spawned | .error | .other => false

/-- A frame as the owner of the port receives it; how reports are spelled is left open. -/
def carries : Native.Supervisor.Frame → Tag × Bytes → Bool
  | .output pipe bytes, data => data == (outTag pipe, bytes)
  | .tracked _, data => data.1 == .tracked
  | .exit _, data => data.1 == .exit

def chunk? : Tag × Bytes → Option (Pipe × Bytes)
  | (.stdout, bytes) => some (.stdout, bytes)
  | (.stderr, bytes) => some (.stderr, bytes)
  | _ => none

/-- A client of one port: the message a step receives and the commands sent, oldest first. -/
structure Client (C L : Type) where
  step : C → L → Option C
  hears : L → Option (Tag × Bytes)
  commands : C → List Command
  grows : ∀ {c : C} {l : L} {d : C}, step c l = some d → commands c <+: commands d

/-- A step of a client that adds to its record and changes neither its account nor what `view`
takes from the record. -/
structure Mute {S O E V : Type} (outstanding : S → O) (record : S → List E) (view : List E → V)
    (s t : S) : Prop where
  outstanding : outstanding t = outstanding s
  grows : record s <+: record t
  said : view (record t) = view (record s)

namespace Mute

variable {S O E V : Type} {outstanding : S → O} {record : S → List E} {view : List E → V} {s t u : S}

lemma of_eq (ho : outstanding t = outstanding s) (hr : record t = record s) :
    Mute outstanding record view s t :=
  ⟨ho, hr ▸ List.prefix_rfl, congrArg view hr⟩

lemma refl (s : S) : Mute outstanding record view s s := .of_eq rfl rfl

lemma trans (h : Mute outstanding record view s t) (k : Mute outstanding record view t u) :
    Mute outstanding record view s u :=
  ⟨k.outstanding.trans h.outstanding, h.grows.trans k.grows, k.said.trans h.said⟩

end Mute

variable {C L σ : Type}

def Client.port (K : Client C L) : Link.End C L (Tag × Bytes) InFrame where
  step := K.step
  takes l := (K.hears l).filter fun data => supervised data.1
  sent c := (K.commands c).filterMap inFrame
  grows h := (K.grows h).filterMap inFrame

def shim (cfg : Config) (H : Native.Host σ) :
    Link.End (Native.Supervisor.State σ) Native.Supervisor.Label InFrame Native.Supervisor.Frame where
  step := Native.Supervisor.step cfg H
  takes := Native.Supervisor.Label.frame?
  sent s := s.wire.reverse
  grows h := List.reverse_prefix.mpr (Native.Supervisor.wire_step h)

abbrev State (C σ : Type) := Link.State C (Native.Supervisor.State σ)

abbrev Label (L : Type) := Link.Label L Native.Supervisor.Label

/-- A client whose end of the port is closed is done with it. -/
def Allowed (s : State C σ) : Label L → Prop
  | .left _ => s.right.connected = true
  | .right _ => True

instance (s : State C σ) (l : Label L) : Decidable (Allowed s l) := by
  cases l <;> unfold Allowed <;> infer_instance

def step (K : Client C L) (cfg : Config) (H : Native.Host σ) : State C σ → Label L → Option (State C σ) :=
  guarded Allowed (Link.step K.port (shim cfg H) carries (· == ·))

variable (K : Client C L) (cfg : Config) (H : Native.Host σ)

def Runs (s : State C σ) (labels : List (Label L)) (t : State C σ) : Prop :=
  Run (fun s l t => step K cfg H s l = some t) s labels t

def shimLabels (labels : List (Label L)) : List Native.Supervisor.Label :=
  labels.filterMap Link.Label.right?

def clientLabels (labels : List (Label L)) : List L :=
  labels.filterMap Link.Label.left?

def heard (labels : List (Label L)) : List (Pipe × Bytes) :=
  ((clientLabels labels).filterMap K.hears).filterMap chunk?

variable {K cfg H} {c : C} {n : Native.Supervisor.State σ} {s t : State C σ}
  {labels : List (Label L)} {l : Label L}

lemma step_link (h : step K cfg H s l = some t) :
    Link.step K.port (shim cfg H) carries (· == ·) s l = some t ∧ Allowed s l := by
  rw [step, guarded] at h
  split at h
  · next ha => exact ⟨h, ha⟩
  · cases h

lemma step_left {l : L} (h : step K cfg H s (.left l) = some t) :
    K.step s.left l = some t.left ∧ t.right = s.right := by
  obtain ⟨k, -, hs⟩ := Option.bind_eq_some_iff.mp (step_link h).1
  obtain ⟨d, hd, rfl⟩ := Option.map_eq_some_iff.mp hs
  exact ⟨hd, rfl⟩

lemma Runs.linked (h : Runs K cfg H (.begin c n) labels s) :
    Link.Linked K.port (shim cfg H) carries (· == ·) (.begin c n) labels s :=
  Link.run_linked (h.mono fun _ _ _ hs => (step_link hs).1)

lemma Runs.client (h : Runs K cfg H (.begin c n) labels s) :
    Run (fun c l d => K.step c l = some d) c (clientLabels labels) s.left :=
  h.linked.left

lemma Runs.shim (h : Runs K cfg H (.begin c n) labels s) :
    Run (fun s l t => Native.Supervisor.step cfg H s l = some t) n (shimLabels labels) s.right :=
  h.linked.right

lemma Runs.snoc (h : Runs K cfg H s labels t) {u : State C σ} (hs : step K cfg H t l = some u) :
    Runs K cfg H s (labels ++ [l]) u :=
  Run.snoc h hs

lemma forall₂_beq {α : Type} [BEq α] [LawfulBEq α] {xs ys : List α}
    (h : List.Forall₂ (fun x y => (x == y) = true) xs ys) : xs = ys := by
  induction h with
  | nil => rfl
  | cons hxy _ ih => rw [eq_of_beq hxy, ih]

lemma Runs.passed (h : Runs K cfg H (.begin c n) labels s) :
    (shimLabels labels).filterMap Native.Supervisor.Label.frame? =
      ((K.commands s.left).filterMap inFrame).take s.toRight :=
  (forall₂_beq h.linked.toRight.fits).symm

lemma Runs.inbox (h : Runs K cfg H (.begin c n) labels s) (hn : n.inbox = []) :
    s.right.inbox.Perm (((K.commands s.left).filterMap inFrame).take s.toRight) := by
  have hperm := Native.Supervisor.run_inbox h.shim
  rw [hn, List.append_nil, h.passed] at hperm
  exact hperm

def granted (pipe : Pipe) (commands : List Command) : ℕ :=
  Native.Supervisor.credits pipe (commands.filterMap inFrame)

lemma Runs.granted_le (h : Runs K cfg H (.begin c n) labels s) (hn : n.inbox = []) (pipe : Pipe) :
    Native.Supervisor.credits pipe s.right.taken ≤ granted pipe (K.commands s.left) := by
  have hall : Native.Supervisor.credits pipe s.right.inbox =
      Native.Supervisor.credits pipe (((K.commands s.left).filterMap inFrame).take s.toRight) :=
    Native.Supervisor.credits_perm (h.inbox hn)
  have hsplit := Native.Supervisor.credits_append pipe
    (((K.commands s.left).filterMap inFrame).take s.toRight)
    (((K.commands s.left).filterMap inFrame).drop s.toRight)
  rw [List.take_append_drop] at hsplit
  rw [Native.Supervisor.State.inbox, Native.Supervisor.credits_append] at hall
  rw [granted]
  omega

lemma Runs.kill_sent (h : Runs K cfg H (.begin c n) labels s) (hn : n.inbox = [])
    (hk : .kill ∈ s.right.taken) : .kill ∈ K.commands s.left := by
  have hin : InFrame.kill ∈ s.right.inbox := List.mem_append_right _ hk
  have hsent := List.mem_of_mem_take ((h.inbox hn).mem_iff.mp hin)
  obtain ⟨command, hc, hkill⟩ := List.mem_filterMap.mp hsent
  cases command with
  | kill => exact hc
  | credit pipe bytes => cases pipe <;> cases hkill
  | stdin | eof => cases hkill

lemma parseGrant_encodeCredit (bytes : ℕ) :
    Native.parseGrant (Shim.encodeCredit bytes) = some (bytes % 256 ^ 8) := by
  have hencode : Shim.encodeCredit bytes = BigEndian.encode 8 bytes := rfl
  rw [Native.parseGrant, hencode, if_pos (BigEndian.length_encode 8 bytes)]
  exact congrArg some (BigEndian.decode_encode 8 bytes)

lemma granted_append (pipe : Pipe) (commands more : List Command) :
    granted pipe (commands ++ more) = granted pipe commands + granted pipe more := by
  rw [granted, List.filterMap_append, Native.Supervisor.credits_append, granted, granted]

lemma granted_credit {bytes : ℕ} (pipe : Pipe) (h : bytes ≤ Native.u64Max) :
    granted pipe [.credit pipe bytes] = bytes := by
  have hgrant : Native.parseGrant (Shim.encodeCredit bytes) = some bytes := by
    have hlt : bytes < 256 ^ 8 := Nat.lt_of_le_of_lt h (by decide)
    rw [parseGrant_encodeCredit, Nat.mod_eq_of_lt hlt]
  cases pipe <;>
  simp [granted, inFrame, Native.Supervisor.credits, Native.Supervisor.InFrame.brings, hgrant]

lemma granted_credit_le (pipe : Pipe) (bytes : ℕ) : granted pipe [.credit pipe bytes] ≤ bytes := by
  have hle : bytes % 256 ^ 8 ≤ bytes := Nat.mod_le _ _
  cases pipe <;>
  simpa [granted, inFrame, Native.Supervisor.credits, Native.Supervisor.InFrame.brings,
    parseGrant_encodeCredit] using hle

lemma granted_other {pipe q : Pipe} (h : q ≠ pipe) (bytes : ℕ) :
    granted pipe [.credit q bytes] = 0 := by
  cases pipe <;> cases q
  · exact absurd rfl h
  · rfl
  · rfl
  · exact absurd rfl h

lemma carries_chunk {f : Native.Supervisor.Frame} {data : Tag × Bytes} (h : carries f data = true) :
    chunk? data = f.output? := by
  obtain ⟨tag, bytes⟩ := data
  cases f with
  | output pipe payload =>
    have hdata := eq_of_beq h
    cases pipe <;> rw [hdata] <;> rfl
  | tracked id =>
    obtain rfl : tag = .tracked := eq_of_beq h
    rfl
  | exit report =>
    obtain rfl : tag = .exit := eq_of_beq h
    rfl

lemma carried_chunks {frames : List Native.Supervisor.Frame} {datas : List (Tag × Bytes)}
    (h : List.Forall₂ (fun f data => carries f data = true) frames datas) :
    datas.filterMap chunk? = frames.filterMap Native.Supervisor.Frame.output? := by
  induction h with
  | nil => rfl
  | cons hc _ ih => rw [List.filterMap_cons, List.filterMap_cons, carries_chunk hc, ih]

lemma chunk_supervised (data : Option (Tag × Bytes)) :
    (data.filter fun d => supervised d.1).bind chunk? = data.bind chunk? := by
  cases data with
  | none => rfl
  | some data =>
    obtain ⟨tag, bytes⟩ := data
    cases tag <;> rfl

lemma heard_taken (labels : List (Label L)) :
    heard K labels = ((clientLabels labels).filterMap K.port.takes).filterMap chunk? := by
  rw [heard, List.filterMap_filterMap, List.filterMap_filterMap]
  refine List.filterMap_congr fun l _ => ?_
  exact (chunk_supervised (K.hears l)).symm

lemma Runs.heard (h : Runs K cfg H (.begin c n) labels s) : Session.heard K labels =
    (s.right.wire.reverse.take s.toLeft).filterMap Native.Supervisor.Frame.output? := by
  rw [heard_taken]
  exact carried_chunks h.linked.toLeft.fits

lemma Runs.heard_prefix (h : Runs K cfg H (.begin c n) labels s) :
    Session.heard K labels <+: Native.Supervisor.outputs s.right.wire := by
  rw [h.heard]
  exact (List.take_prefix _ _).filterMap _

lemma outputs_reverse (frames : List Native.Supervisor.Frame) :
    Native.Supervisor.outputs frames.reverse = frames.filterMap Native.Supervisor.Frame.output? := by
  rw [Native.Supervisor.outputs, List.reverse_reverse]

lemma reverse_split {α : Type} {xs : List α} {k : ℕ} {x : α} (h : xs.reverse[k]? = some x) :
    xs = (xs.reverse.drop (k + 1)).reverse ++ x :: (xs.reverse.take k).reverse := by
  obtain ⟨hlt, rfl⟩ := List.getElem?_eq_some_iff.mp h
  have hsplit := List.take_append_drop k xs.reverse
  rw [List.drop_eq_getElem_cons hlt] at hsplit
  have hrev := congrArg List.reverse hsplit
  rw [List.reverse_append, List.reverse_cons, List.append_assoc, List.reverse_reverse] at hrev
  exact hrev.symm

lemma Runs.closing (h : Runs K cfg H (.begin c n) labels s) {l : L} {payload : Bytes}
    (hl : K.hears l = some (.exit, payload)) (hs : step K cfg H s (.left l) = some t) :
    ∃ newer older r, s.right.wire = newer ++ .exit r :: older ∧
      Session.heard K labels = Native.Supervisor.outputs older := by
  obtain ⟨k, hk, -⟩ := Option.bind_eq_some_iff.mp (step_link hs).1
  have htakes : K.port.takes l = some (.exit, payload) := by
    change (K.hears l).filter _ = _
    rw [hl]
    rfl
  rw [htakes] at hk
  obtain ⟨f, hf, hk⟩ := Option.bind_eq_some_iff.mp hk
  split at hk
  · next hfits =>
    have hwire := reverse_split (hf : s.right.wire.reverse[s.toLeft]? = some f)
    have hcarries : carries f (.exit, payload) = true := hfits
    cases f with
    | exit r =>
      refine ⟨_, _, r, hwire, ?_⟩
      rw [h.heard, outputs_reverse]
    | output pipe bytes =>
      have htag := congrArg Prod.fst (eq_of_beq hcarries)
      cases pipe <;> cases htag
    | tracked id => cases hcarries
  · cases hk

lemma metered {pipe : Pipe} (hm : Native.Supervisor.Metered pipe [] n)
    (hw : ∀ labels s, Runs K cfg H (.begin c n) labels s →
      Native.Supervisor.Within pipe (shimLabels labels) s.right)
    (h : Runs K cfg H (.begin c n) labels s) :
    Native.Supervisor.Metered pipe (shimLabels labels) s.right := by
  have hinv := Run.history (I := fun labels s => Runs K cfg H (.begin c n) labels s ∧
    Native.Supervisor.Metered pipe (shimLabels labels) s.right) ?_ h ⟨.nil _, hm⟩
  · exact hinv.2
  · rintro labels s l t ⟨hrun, hm⟩ hs
    have hrun' := hrun.snoc hs
    refine ⟨hrun', ?_⟩
    obtain ⟨hlink, -⟩ := step_link hs
    have hwithin := hw _ _ hrun'
    rw [shimLabels, Link.filterMap_snoc] at hwithin ⊢
    cases l with
    | left l =>
      obtain ⟨k, -, hs⟩ := Option.bind_eq_some_iff.mp hlink
      obtain ⟨d, -, rfl⟩ := Option.map_eq_some_iff.mp hs
      rw [Link.Label.right?, Option.toList_none, List.append_nil]
      exact hm
    | right l =>
      obtain ⟨k, -, hs⟩ := Option.bind_eq_some_iff.mp hlink
      obtain ⟨d, hd, rfl⟩ := Option.map_eq_some_iff.mp hs
      exact hm.step hd hwithin

end Forcola.Beam.Session
