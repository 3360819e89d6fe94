import Forcola.Beam.ExitDecoders
import Forcola.Library.Transition

/-! What the collector of `Forcola.run/2` keeps of the output it is sent. -/

namespace Forcola.Beam.Run

open Library
open Native (Bytes Pipe)
open Shim (Command)

/-- A byte of an output frame; `full` says that the observer's queue was found full then. -/
structure Arrival where
  pipe : Pipe
  byte : UInt8
  full : Bool

def Arrival.ofFrame (pipe : Pipe) (payload : Bytes) (full : Bool) : List Arrival :=
  payload.map (⟨pipe, ·, full⟩)

def cancellation : List Effect → Option Reason
  | [] => none
  | .cancelled reason _ :: older => cancellation older <|> some reason
  | _ :: older => cancellation older

def received : List Effect → List Arrival
  | [] => []
  | .received pipe payload full :: older => received older ++ Arrival.ofFrame pipe payload full
  | _ :: older => received older

def arrivals : List Effect → List Arrival
  | [] => []
  | .received pipe payload full :: older =>
    if (cancellation older).isSome then arrivals older
    else arrivals older ++ Arrival.ofFrame pipe payload full
  | _ :: older => arrivals older

def kills : List Effect → ℕ
  | [] => 0
  | .send .kill :: older => kills older + 1
  | _ :: older => kills older

def credits : List Effect → List (Pipe × ℕ)
  | [] => []
  | .send (.credit pipe bytes) :: older => credits older ++ [(pipe, bytes)]
  | _ :: older => credits older

def observed : List Effect → List (Pipe × UInt8)
  | [] => []
  | .observe pipe bytes :: older => observed older ++ bytes.map (pipe, ·)
  | _ :: older => observed older

variable (cfg : Options) {clock : ℕ → Instant} {a b : Acc}

def kept (bytes : List Arrival) : List Arrival :=
  match cfg.maxOutputBytes with
  | some max => bytes.take max
  | none => bytes

def exceeds (bytes : List Arrival) : Prop :=
  ∃ max, cfg.maxOutputBytes = some max ∧ max < bytes.length

def destination (pipe : Pipe) : Pipe :=
  if cfg.merge then .stdout else pipe

def channel (pipe : Pipe) (bytes : List Arrival) : Bytes :=
  (bytes.filter fun x => destination cfg x.pipe = pipe).map Arrival.byte

/-- What the observer is owed: everything kept but the frame that found its queue full. -/
def owed (bytes : List Arrival) : List (Pipe × UInt8) :=
  if cfg.outputObserver then
    (bytes.filter fun x => !x.full).map fun x => (destination cfg x.pipe, x.byte)
  else []

def Acc.captured (a : Acc) : Pipe → Bytes
  | .stdout => a.stdout
  | .stderr => a.stderr

structure Collects (a : Acc) : Prop where
  captured : ∀ p, a.captured p = channel cfg p (kept cfg (arrivals a.log))
  bytes : a.bytes = (kept cfg (arrivals a.log)).length
  reason : a.reason = cancellation a.log
  kills : kills a.log = a.reason.toList.length
  limit : a.reason = some .maxOutputBytes ↔ exceeds cfg (arrivals a.log)
  full : a.reason = some .observerOverflow ↔
    ¬exceeds cfg (arrivals a.log) ∧ ∃ x ∈ arrivals a.log, x.full = true
  observed : observed a.log = owed cfg (kept cfg (arrivals a.log))
  whole : a.truncated = false → received a.log = kept cfg (arrivals a.log)

variable {cfg} {pipe : Pipe} {payload : Bytes} {full : Bool} {reason : Reason}

lemma ofFrame_length : (Arrival.ofFrame pipe payload full).length = payload.length :=
  List.length_map _

lemma ofFrame_take (n : ℕ) :
    (Arrival.ofFrame pipe payload full).take n = Arrival.ofFrame pipe (payload.take n) full := by
  rw [Arrival.ofFrame, Arrival.ofFrame, List.map_take]

lemma channel_append (p : Pipe) (x y : List Arrival) :
    channel cfg p (x ++ y) = channel cfg p x ++ channel cfg p y := by
  rw [channel, List.filter_append, List.map_append]
  rfl

lemma owed_append (x y : List Arrival) : owed cfg (x ++ y) = owed cfg x ++ owed cfg y := by
  simp only [owed]
  split
  · rw [List.filter_append, List.map_append]
  · rfl

lemma channel_ofFrame (p : Pipe) : channel cfg p (Arrival.ofFrame pipe payload full) =
    if destination cfg pipe = p then payload else [] := by
  rw [channel, Arrival.ofFrame]
  split
  · next h =>
    rw [List.filter_eq_self.mpr]
    · rw [List.map_map]
      exact List.map_id payload
    · intro x hx
      obtain ⟨byte, -, rfl⟩ := List.mem_map.mp hx
      exact decide_eq_true h
  · next h =>
    rw [List.filter_eq_nil_iff.mpr]
    · rfl
    · intro x hx
      obtain ⟨byte, -, rfl⟩ := List.mem_map.mp hx
      simpa using h

lemma owed_ofFrame : owed cfg (Arrival.ofFrame pipe payload full) =
    if cfg.outputObserver && !full then payload.map (destination cfg pipe, ·) else [] := by
  rw [owed, Arrival.ofFrame]
  cases cfg.outputObserver with
  | false => rfl
  | true =>
    cases full with
    | true =>
      rw [List.filter_eq_nil_iff.mpr]
      · rfl
      · intro x hx
        obtain ⟨byte, -, rfl⟩ := List.mem_map.mp hx
        exact Bool.false_ne_true
    | false =>
      rw [List.filter_eq_self.mpr]
      · exact List.map_map
      · intro x hx
        obtain ⟨byte, -, rfl⟩ := List.mem_map.mp hx
        rfl

def fits (cfg : Options) (a : Acc) (size : ℕ) : ℕ :=
  match cfg.maxOutputBytes with
  | some max => min size (max - a.bytes)
  | none => size

lemma kept_of_le {x : List Arrival} (h : ¬exceeds cfg x) : kept cfg x = x := by
  rw [kept]
  split
  · next max hmax =>
    apply List.take_of_length_le
    by_contra hlt
    exact h ⟨max, hmax, by omega⟩
  · rfl

lemma kept_frame {x : List Arrival} (h : ¬exceeds cfg x) (hbytes : a.bytes = x.length) :
    kept cfg (x ++ Arrival.ofFrame pipe payload full) =
      x ++ Arrival.ofFrame pipe (payload.take (fits cfg a payload.length)) full := by
  rw [kept, fits]
  cases hmax : cfg.maxOutputBytes with
  | none => simp
  | some max =>
    have hle : x.length ≤ max := by
      by_contra hlt
      exact h ⟨max, hmax, by omega⟩
    have htake : payload.take (min payload.length (max - x.length)) =
        payload.take (max - x.length) := by
      rw [List.take_eq_take_iff]
      omega
    dsimp only
    rw [List.take_append, List.take_of_length_le hle, ofFrame_take, hbytes, htake]

lemma exceeds_frame {x : List Arrival} (h : ¬exceeds cfg x) (hbytes : a.bytes = x.length) :
    exceeds cfg (x ++ Arrival.ofFrame pipe payload full) ↔
      fits cfg a payload.length < payload.length := by
  rw [fits]
  constructor
  · rintro ⟨max, hmax, hlt⟩
    have hle : x.length ≤ max := by
      by_contra hlt
      exact h ⟨max, hmax, by omega⟩
    rw [List.length_append, ofFrame_length] at hlt
    rw [hmax]
    dsimp only
    omega
  · intro hlt
    cases hmax : cfg.maxOutputBytes with
    | none =>
      rw [hmax] at hlt
      exact absurd hlt (lt_irrefl _)
    | some max =>
      rw [hmax] at hlt
      dsimp only at hlt
      refine ⟨max, hmax, ?_⟩
      rw [List.length_append, ofFrame_length]
      omega

def head (cfg : Options) (a : Acc) (payload : Bytes) : Bytes :=
  payload.take (fits cfg a payload.length)

def stored (cfg : Options) (clock : ℕ → Instant) (a : Acc) (pipe : Pipe) (payload : Bytes)
    (full : Bool) : Acc :=
  let b := (a.add (.received pipe payload full)).append (destination cfg pipe) (head cfg a payload)
  let b := { b with bytes := b.bytes + fits cfg a payload.length }
  match cfg.idleTimeout with
  | some idle => { (b.now clock).2 with idleAt := some ((b.now clock).1 + idle) }
  | none => { b with idleAt := none }

structure Stores (cfg : Options) (a : Acc) (pipe : Pipe) (payload : Bytes) (full : Bool)
    (observes : Bool) (b : Acc) : Prop where
  captured : ∀ p, b.captured p =
    a.captured p ++ if destination cfg pipe = p then head cfg a payload else []
  bytes : b.bytes = a.bytes + fits cfg a payload.length
  reason : b.reason = a.reason
  truncated : b.truncated = a.truncated
  tracking : b.tracking = a.tracking
  timeoutAt : b.timeoutAt = a.timeoutAt
  backstop : b.backstop = a.backstop
  reads : a.reads ≤ b.reads
  log : b.log = (if observes then [.observe (destination cfg pipe) (head cfg a payload)] else []) ++
    .received pipe payload full :: a.log

variable {queue : Option ℕ}

lemma stored_stores (a : Acc) (pipe : Pipe) (payload : Bytes) (full : Bool) :
    Stores cfg a pipe payload full false (stored cfg clock a pipe payload full) := by
  rw [stored]
  cases cfg.idleTimeout with
  | none =>
    cases hd : destination cfg pipe with
    | stdout =>
      refine ⟨fun p => ?_, rfl, rfl, rfl, rfl, rfl, rfl, le_refl _, rfl⟩
      cases p <;> simp [Acc.append, Acc.add, Acc.captured, hd]
    | stderr =>
      refine ⟨fun p => ?_, rfl, rfl, rfl, rfl, rfl, rfl, le_refl _, rfl⟩
      cases p <;> simp [Acc.append, Acc.add, Acc.captured, hd]
  | some idle =>
    cases hd : destination cfg pipe with
    | stdout =>
      refine ⟨fun p => ?_, rfl, rfl, rfl, rfl, rfl, rfl, Nat.le_succ _, rfl⟩
      cases p <;> simp [Acc.append, Acc.add, Acc.captured, Acc.now, hd]
    | stderr =>
      refine ⟨fun p => ?_, rfl, rfl, rfl, rfl, rfl, rfl, Nat.le_succ _, rfl⟩
      cases p <;> simp [Acc.append, Acc.add, Acc.captured, Acc.now, hd]

def observes (cfg : Options) (a : Acc) (payload : Bytes) : Bool :=
  cfg.outputObserver && !(head cfg a payload).isEmpty

lemma notify_stored (a : Acc) (pipe : Pipe) (payload : Bytes) (queue : Option ℕ) :
    ∃ b, notify cfg (stored cfg clock a pipe payload (queueFull cfg queue)) (destination cfg pipe)
        (head cfg a payload) queue = (observes cfg a payload && queueFull cfg queue, b) ∧
      Stores cfg a pipe payload (queueFull cfg queue)
        (observes cfg a payload && !queueFull cfg queue) b := by
  have hs := @stored_stores cfg clock a pipe payload (queueFull cfg queue)
  rw [notify, observes]
  cases cfg.outputObserver && !(head cfg a payload).isEmpty with
  | false => exact ⟨_, rfl, hs⟩
  | true =>
    cases hfull : queueFull cfg queue with
    | true =>
      rw [hfull] at hs
      exact ⟨_, rfl, hs⟩
    | false =>
      rw [hfull] at hs
      refine ⟨_, rfl, ?_⟩
      exact { hs with
        captured := hs.captured
        log := by simp [Acc.add, hs.log] }

lemma output_stored (hr : a.reason = none) : output cfg clock a pipe payload queue =
    let r := notify cfg (stored cfg clock a pipe payload (queueFull cfg queue))
      (destination cfg pipe) (head cfg a payload) queue
    let c :=
      if fits cfg a payload.length < payload.length then
        cancel cfg clock { r.2 with truncated := true } .maxOutputBytes
      else if r.1 then cancel cfg clock { r.2 with truncated := true } .observerOverflow
      else r.2
    if cfg.strict && c.reason.isNone then grant c pipe payload.length else c := by
  have hopen : ¬((a.add (.received pipe payload (queueFull cfg queue))).reason.isSome = true) := by
    simp [Acc.add, hr]
  rw [output]
  dsimp only
  rw [if_neg hopen]
  rfl

lemma output_open (hr : a.reason = none) : ∃ b, Stores cfg a pipe payload (queueFull cfg queue)
      (observes cfg a payload && !queueFull cfg queue) b ∧
    output cfg clock a pipe payload queue =
      if fits cfg a payload.length < payload.length then
        cancel cfg clock { b with truncated := true } .maxOutputBytes
      else if observes cfg a payload && queueFull cfg queue then
        cancel cfg clock { b with truncated := true } .observerOverflow
      else if cfg.strict then grant b pipe payload.length else b := by
  obtain ⟨b, hnotify, hb⟩ := @notify_stored cfg clock a pipe payload queue
  refine ⟨b, hb, ?_⟩
  have hnone : b.reason.isNone = true := by rw [hb.reason, hr]; rfl
  rw [output_stored hr, hnotify]
  dsimp only
  split
  · simp [cancel, Acc.now, Acc.add]
  · split
    · simp [cancel, Acc.now, Acc.add]
    · simp [hnone]

namespace Stores

variable {o : Bool}

lemma cancellation (h : Stores cfg a pipe payload full o b) :
    cancellation b.log = Run.cancellation a.log := by
  rw [h.log]
  cases o <;> rfl

lemma arrivals (h : Stores cfg a pipe payload full o b) (hopen : Run.cancellation a.log = none) :
    arrivals b.log = Run.arrivals a.log ++ Arrival.ofFrame pipe payload full := by
  rw [h.log]
  cases o <;> simp [Run.arrivals, hopen]

lemma received (h : Stores cfg a pipe payload full o b) :
    received b.log = Run.received a.log ++ Arrival.ofFrame pipe payload full := by
  rw [h.log]
  cases o <;> rfl

lemma kills (h : Stores cfg a pipe payload full o b) : kills b.log = Run.kills a.log := by
  rw [h.log]
  cases o <;> rfl

lemma credits (h : Stores cfg a pipe payload full o b) : credits b.log = Run.credits a.log := by
  rw [h.log]
  cases o <;> rfl

lemma observed (h : Stores cfg a pipe payload full o b) :
    observed b.log = Run.observed a.log ++
      if o then (head cfg a payload).map (destination cfg pipe, ·) else [] := by
  rw [h.log]
  cases o <;> simp [Run.observed]

end Stores

namespace Collects

lemma open_arrivals (h : Collects cfg a) (hr : a.reason = none) :
    cancellation a.log = none ∧ ¬exceeds cfg (arrivals a.log) ∧
      kept cfg (arrivals a.log) = arrivals a.log ∧ a.bytes = (arrivals a.log).length ∧
      ∀ x ∈ arrivals a.log, x.full = false := by
  have hfit : ¬exceeds cfg (arrivals a.log) := by
    intro hexceeds
    cases hr.symm.trans (h.limit.mpr hexceeds)
  have hkept := kept_of_le hfit
  refine ⟨h.reason.symm.trans hr, hfit, hkept, hkept ▸ h.bytes, fun x hx => ?_⟩
  by_contra hfull
  cases hr.symm.trans (h.full.mpr ⟨hfit, x, hx, by simpa using hfull⟩)

lemma stored (h : Collects cfg a) (hr : a.reason = none)
    (hs : Stores cfg a pipe payload full (observes cfg a payload && !full) b) :
    (∀ p, b.captured p = channel cfg p (kept cfg (arrivals b.log))) ∧
      b.bytes = (kept cfg (arrivals b.log)).length ∧
      Run.observed b.log = owed cfg (kept cfg (arrivals b.log)) ∧
      (exceeds cfg (arrivals b.log) ↔ fits cfg a payload.length < payload.length) := by
  obtain ⟨hopen, hfit, hkept, hbytes, -⟩ := h.open_arrivals hr
  have hnew : kept cfg (arrivals b.log) =
      arrivals a.log ++ Arrival.ofFrame pipe (head cfg a payload) full := by
    rw [hs.arrivals hopen, kept_frame hfit hbytes]
    rfl
  refine ⟨fun p => ?_, ?_, ?_, ?_⟩
  · rw [hnew, channel_append, channel_ofFrame, hs.captured, h.captured, hkept]
  · have hle : fits cfg a payload.length ≤ payload.length := by
      rw [fits]
      split
      · exact min_le_left _ _
      · exact le_refl _
    rw [hnew, List.length_append, ofFrame_length, head, List.length_take, hs.bytes, hbytes,
      min_eq_left hle]
  · rw [hnew, owed_append, owed_ofFrame, hs.observed, h.observed, hkept, observes]
    cases cfg.outputObserver with
    | false => simp
    | true =>
      cases full with
      | true => simp
      | false =>
        cases hhead : head cfg a payload with
        | nil => simp
        | cons x xs => simp
  · rw [hs.arrivals hopen, exceeds_frame hfit hbytes]

lemma cut (h : Collects cfg a) (hr : a.reason = none)
    (hs : Stores cfg a pipe payload full (observes cfg a payload && !full) b)
    (hcut : fits cfg a payload.length < payload.length) :
    Collects cfg (cancel cfg clock { b with truncated := true } .maxOutputBytes) := by
  obtain ⟨hcaptured, hbytes, hobserved, hexceeds⟩ := h.stored hr hs
  have hopen := (h.open_arrivals hr).1
  exact {
    captured := hcaptured
    bytes := hbytes
    reason := by
      change some Reason.maxOutputBytes =
        (cancellation b.log <|> some Reason.maxOutputBytes)
      rw [hs.cancellation, hopen]
      rfl
    kills := by
      change Run.kills b.log + 1 = 1
      rw [hs.kills, h.kills, hr]
      rfl
    limit := iff_of_true rfl (hexceeds.mpr hcut)
    full := by
      refine iff_of_false (fun hne => by cases hne) ?_
      exact fun hfull => hfull.1 (hexceeds.mpr hcut)
    observed := hobserved
    whole := fun ht => by cases ht }

lemma overflow (h : Collects cfg a) (hr : a.reason = none)
    (hs : Stores cfg a pipe payload full (observes cfg a payload && !full) b)
    (hcut : ¬fits cfg a payload.length < payload.length)
    (hfull : (observes cfg a payload && full) = true) :
    Collects cfg (cancel cfg clock { b with truncated := true } .observerOverflow) := by
  obtain ⟨hcaptured, hbytes, hobserved, hexceeds⟩ := h.stored hr hs
  have hopen := (h.open_arrivals hr).1
  have hsome : ∃ x ∈ arrivals b.log, x.full = true := by
    obtain ⟨hobs, rfl⟩ := Bool.and_eq_true_iff.mp hfull
    rw [observes, Bool.and_eq_true] at hobs
    cases hp : payload with
    | nil => simp [hp, head] at hobs
    | cons x xs =>
      rw [hs.arrivals hopen]
      exact ⟨⟨pipe, x, true⟩, List.mem_append_right _ (by simp [Arrival.ofFrame, hp]), rfl⟩
  exact {
    captured := hcaptured
    bytes := hbytes
    reason := by
      change some Reason.observerOverflow =
        (cancellation b.log <|> some Reason.observerOverflow)
      rw [hs.cancellation, hopen]
      rfl
    kills := by
      change Run.kills b.log + 1 = 1
      rw [hs.kills, h.kills, hr]
      rfl
    limit := iff_of_false (fun hne => by cases hne) fun he => hcut (hexceeds.mp he)
    full := iff_of_true rfl ⟨fun he => hcut (hexceeds.mp he), hsome⟩
    observed := hobserved
    whole := fun ht => by cases ht }

lemma took (h : Collects cfg a) (hr : a.reason = none)
    (hs : Stores cfg a pipe payload (queueFull cfg queue)
      (observes cfg a payload && !queueFull cfg queue) b)
    (hcut : ¬fits cfg a payload.length < payload.length)
    (hfull : (observes cfg a payload && queueFull cfg queue) = false) : Collects cfg b := by
  obtain ⟨hcaptured, hbytes, hobserved, hexceeds⟩ := h.stored hr hs
  obtain ⟨hopen, -, hkept, -, hclear⟩ := h.open_arrivals hr
  have hfit : ¬exceeds cfg (arrivals b.log) := fun he => hcut (hexceeds.mp he)
  have hnone : ¬∃ x ∈ arrivals b.log, x.full = true := by
    rintro ⟨x, hx, hxfull⟩
    rw [hs.arrivals hopen] at hx
    rcases List.mem_append.mp hx with hx | hx
    · rw [hclear x hx] at hxfull
      cases hxfull
    · obtain ⟨byte, hbyte, rfl⟩ := List.mem_map.mp hx
      have hq : queueFull cfg queue = true := hxfull
      have hobserver : cfg.outputObserver = true := by
        rw [queueFull, Bool.and_eq_true, Bool.and_eq_true] at hq
        exact hq.1.1
      have hhead : head cfg a payload = payload := List.take_of_length_le (by omega)
      rw [hq, Bool.and_true, observes, hobserver, hhead] at hfull
      cases payload with
      | nil => cases hbyte
      | cons y ys => cases hfull
  exact {
    captured := hcaptured
    bytes := hbytes
    reason := by rw [hs.reason, hs.cancellation, h.reason]
    kills := by rw [hs.kills, hs.reason, h.kills]
    limit := by
      rw [hs.reason, hr]
      exact iff_of_false (fun hne => by cases hne) hfit
    full := by
      rw [hs.reason, hr]
      exact iff_of_false (fun hne => by cases hne) fun hf => hnone hf.2
    observed := hobserved
    whole := by
      intro ht
      rw [hs.truncated] at ht
      rw [kept_of_le hfit, hs.received, hs.arrivals hopen, h.whole ht, hkept] }

end Collects

lemma checkDeadlines_cases (cfg : Options) (clock : ℕ → Instant) (a : Acc) :
    (∃ n, a.reads ≤ n ∧ checkDeadlines cfg clock a = { a with reads := n }) ∨
      ∃ n reason, a.reads ≤ n ∧ a.reason = none ∧ (reason = .timeout ∨ reason = .idleTimeout) ∧
        checkDeadlines cfg clock a = cancel cfg clock { a with reads := n } reason := by
  have hone : a.reads ≤ a.reads + 1 := Nat.le_succ _
  have htwo : a.reads ≤ a.reads + 1 + 1 := Nat.le_succ_of_le hone
  rw [checkDeadlines]
  split
  · next h =>
    have hr : a.reason = none := Option.isNone_iff_eq_none.mp (Bool.and_eq_true_iff.mp h).2
    dsimp only
    split
    · exact .inr ⟨_, .timeout, hone, hr, .inl rfl, rfl⟩
    · split
      · split
        · exact .inr ⟨_, .idleTimeout, htwo, hr, .inr rfl, rfl⟩
        · exact .inl ⟨_, htwo, rfl⟩
      · exact .inl ⟨_, hone, rfl⟩
  · exact .inl ⟨a.reads, le_refl _, rfl⟩

lemma tell_cases (a : Acc) (event : Option TrackingEvent) :
    a.tell cfg event = a ∨ ∃ e, a.tell cfg event = a.add (.tell e) :=
  (Keeper.notify_cases a event).imp_right fun ⟨e, _, heq⟩ => ⟨e, heq⟩

namespace Collects

lemma tell (h : Collects cfg a) (e : TrackingEvent) : Collects cfg (a.add (.tell e)) :=
  { h with captured := h.captured }

lemma grant (h : Collects cfg a) (size : ℕ) : Collects cfg (grant a pipe size) :=
  { h with captured := h.captured }

lemma tracking (h : Collects cfg a) (t : Tracking) (event : Option TrackingEvent) :
    Collects cfg ({ a with tracking := t }.tell cfg event) := by
  have ht : Collects cfg { a with tracking := t } := { h with captured := h.captured }
  rcases @tell_cases cfg { a with tracking := t } event with heq | ⟨e, heq⟩
  · rw [heq]
    exact ht
  · rw [heq]
    exact ht.tell e

lemma reads (h : Collects cfg a) (n : ℕ) : Collects cfg { a with reads := n } :=
  { h with captured := h.captured }

lemma deadline (h : Collects cfg a) (hr : a.reason = none)
    (hreason : reason = .timeout ∨ reason = .idleTimeout) :
    Collects cfg (cancel cfg clock a reason) := by
  obtain ⟨hopen, hfit, -, -, hclear⟩ := h.open_arrivals hr
  have hlimit : reason ≠ .maxOutputBytes ∧ reason ≠ .observerOverflow := by
    rcases hreason with rfl | rfl <;> decide
  exact {
    captured := h.captured
    bytes := h.bytes
    reason := by
      change some reason = (cancellation a.log <|> some reason)
      rw [hopen]
      rfl
    kills := by
      change Run.kills a.log + 1 = 1
      rw [h.kills, hr]
      rfl
    limit := iff_of_false (fun heq => hlimit.1 (Option.some.inj heq)) hfit
    full := by
      refine iff_of_false (fun heq => hlimit.2 (Option.some.inj heq)) ?_
      rintro ⟨-, x, hx, hfull⟩
      rw [show x.full = false from hclear x hx] at hfull
      cases hfull
    observed := h.observed
    whole := h.whole }

lemma checkDeadlines (h : Collects cfg a) : Collects cfg (checkDeadlines cfg clock a) := by
  rcases checkDeadlines_cases cfg clock a with ⟨n, -, heq⟩ | ⟨n, reason, -, hr, hreason, heq⟩
  · rw [heq]
    exact h.reads n
  · rw [heq]
    exact (h.reads n).deadline hr hreason

lemma output (h : Collects cfg a) (pipe : Pipe) (payload : Bytes) (queue : Option ℕ) :
    Collects cfg (output cfg clock a pipe payload queue) := by
  cases hr : a.reason with
  | none =>
    obtain ⟨b, hs, heq⟩ := @output_open cfg clock _ pipe payload queue hr
    rw [heq]
    split
    · next hcut => exact h.cut hr hs hcut
    · next hcut =>
      split
      · next hfull => exact h.overflow hr hs hcut hfull
      · next hfull =>
        have htook := h.took hr hs hcut (by simpa using hfull)
        split
        · exact htook.grant _
        · exact htook
  | some reason =>
    -- nothing is kept after a cancellation
    have hout : Run.output cfg clock a pipe payload queue =
        { a.add (.received pipe payload (queueFull cfg queue)) with truncated := true } := by
      simp [Run.output, Acc.add, hr]
    have hcancelled : (cancellation a.log).isSome = true := by
      rw [← h.reason, hr]
      rfl
    have harrivals : arrivals (.received pipe payload (queueFull cfg queue) :: a.log) =
        arrivals a.log := by
      rw [arrivals, if_pos hcancelled]
    rw [hout]
    constructor
    · intro p
      change a.captured p = channel cfg p (kept cfg (arrivals (_ :: a.log)))
      rw [harrivals, h.captured]
    · change a.bytes = (kept cfg (arrivals (_ :: a.log))).length
      rw [harrivals, h.bytes]
    · exact h.reason
    · exact h.kills
    · change a.reason = _ ↔ exceeds cfg (arrivals (_ :: a.log))
      rw [harrivals, h.limit]
    · change a.reason = _ ↔ ¬exceeds cfg (arrivals (_ :: a.log)) ∧ ∃ x ∈ arrivals (_ :: a.log), _
      rw [harrivals, h.full]
    · change Run.observed a.log = owed cfg (kept cfg (arrivals (_ :: a.log)))
      rw [harrivals, h.observed]
    · exact fun ht => by cases ht

end Collects

structure Ends (a : Acc) (o : Outcome) : Prop where
  output : ∀ r, o.result = some r → r.stdout = a.stdout ∧ r.stderr = a.stderr
  whole : ∀ r, o.result = some r → r.evidence.outputTruncated = some false → a.truncated = false
  reason : ∀ reason, a.reason = some reason →
    ∃ r, o = .stopped reason r ∧ r.evidence.reason = some reason

lemma Ends.tracking {o : Outcome} (h : Ends a o) (t : Tracking) (event : Option TrackingEvent) :
    Ends ({ a with tracking := t }.tell cfg event) o := by
  rcases @tell_cases cfg { a with tracking := t } event with heq | ⟨e, heq⟩
  · rw [heq]
    exact ⟨h.output, h.whole, h.reason⟩
  · rw [heq]
    exact ⟨h.output, h.whole, h.reason⟩

lemma evidence_whole {termination : Termination}
    (h : (evidence a termination).outputTruncated = some false) : a.truncated = false := by
  simp only [evidence] at h
  split at h
  · cases h
  · cases h

lemma ends_stopped {status : Status} {ev : Evidence}
    (hwhole : ev.outputTruncated = some false → a.truncated = false)
    (hreason : ∀ r, a.reason = some r → r = reason ∧ ev.reason = some r) :
    Ends a (.stopped reason (result a status ev)) := by
  constructor
  · intro r hr
    obtain rfl := Option.some.inj hr
    exact ⟨rfl, rfl⟩
  · intro r hr
    obtain rfl := Option.some.inj hr
    exact hwhole
  · intro r hr
    obtain ⟨rfl, hev⟩ := hreason r hr
    exact ⟨_, rfl, hev⟩

lemma ends_open {o : Outcome} {status : Status} {ev : Evidence} (hr : a.reason = none)
    (hwhole : ev.outputTruncated = some false → a.truncated = false)
    (ho : o.result = some (result a status ev)) : Ends a o := by
  constructor
  · intro r hres
    obtain rfl := Option.some.inj (ho.symm.trans hres)
    exact ⟨rfl, rfl⟩
  · intro r hres
    obtain rfl := Option.some.inj (ho.symm.trans hres)
    exact hwhole
  · intro reason hsome
    cases hr.symm.trans hsome

lemma only_reason (hr : a.reason = some reason) :
    ∀ r, a.reason = some r → r = reason ∧ a.reason = some r :=
  fun _ hsome => ⟨Option.some.inj (hsome.symm.trans hr), hsome⟩

lemma malformed_ends (report : Json) : Ends a (malformed cfg a report).1 := by
  rw [malformed]
  dsimp only
  cases hr : a.reason with
  | none =>
    refine ends_open hr ?_ rfl
    split <;> exact @evidence_whole _ (.malformedExit)
  | some reason =>
    refine ends_stopped ?_ ?_
    · split <;> exact @evidence_whole _ (.malformedExit)
    · split <;> exact only_reason hr

lemma finishReport_ends (report : Json) : Ends a (finishReport cfg a report).1 := by
  have hwhole : (reportEvidence a report).outputTruncated = some false → a.truncated = false := by
    intro h
    simp only [reportEvidence, truncation] at h
    split at h
    · cases h
    · next ht => simpa using ht
  have hcarries : ∀ r, a.reason = some r → (reportEvidence a report).reason = some r := by
    intro r hr
    simp [reportEvidence, hr]
  rw [finishReport]
  split
  · dsimp only
    cases hev : (reportEvidence a report).reason with
    | none =>
      refine ends_open ?_ hwhole rfl
      cases hr : a.reason with
      | none => rfl
      | some reason => cases hev.symm.trans (hcarries reason hr)
    | some reason =>
      refine ends_stopped hwhole fun r hr => ⟨?_, hcarries r hr⟩
      exact Option.some.inj ((hcarries r hr).symm.trans hev)
  · exact malformed_ends report

lemma spawnError_ends (payload : Bytes) : Ends a (spawnError cfg a payload).1 := by
  rw [spawnError]
  dsimp only
  split
  · cases hr : a.reason with
    | none => exact ends_open hr (@evidence_whole _ (.spawn _)) rfl
    | some reason => exact ends_stopped (@evidence_whole _ (.spawn _)) (only_reason hr)
  · next h =>
    have hr : a.reason = none := by
      rw [Bool.or_eq_true, not_or] at h
      simpa using h.2
    constructor
    · intro r hres
      cases hres
    · intro r hres
      cases hres
    · intro reason hsome
      cases hr.symm.trans hsome

lemma failure_ends (termination : Termination) :
    Ends a (failure cfg a termination (a.reason.getD .timeout)).1 := by
  refine ends_stopped (@evidence_whole _ termination) fun r hr => ?_
  rw [hr]
  exact ⟨rfl, rfl⟩

lemma shimExited_ends (status : ℕ) : Ends a (shimExited cfg a status).1 := by
  rw [shimExited]
  dsimp only
  cases hr : a.reason with
  | none => exact ends_open hr (@evidence_whole _ (.transport status)) rfl
  | some reason =>
    exact ends_stopped (@evidence_whole _ (.transport status)) (only_reason hr)

def State.acc : State → Acc
  | .collecting a | .returned _ a => a

def run (cfg : Options) (clock : ℕ → Instant) (s : State) (messages : List (Option Message)) :
    State :=
  messages.foldl (step cfg clock) s

def Sound (cfg : Options) : State → Prop
  | .collecting a => Collects cfg a
  | .returned o a => Collects cfg a ∧ Ends a o

def earned (cfg : Options) (reason : Option Reason) : Option Message → List (Pipe × ℕ)
  | some (.data .stdout payload _) =>
    if cfg.strict && reason.isNone then [(.stdout, payload.length)] else []
  | some (.data .stderr payload _) =>
    if cfg.strict && reason.isNone then [(.stderr, payload.length)] else []
  | _ => []

variable {s t : State} {message : Option Message}

lemma sound_returns {o : Outcome} {t : Tracking} {event : Option TrackingEvent}
    (h : Collects cfg a) (ho : Ends a o) :
    Sound cfg (.returned o ({ a with tracking := t }.tell cfg event)) :=
  ⟨h.tracking t event, ho.tracking t event⟩

lemma finish_sound (h : Collects cfg a) (payload : Bytes) :
    Sound cfg (returns (finish cfg a payload)) := by
  have hmalformed : ∀ report, Sound cfg (returns (malformed cfg a report)) :=
    fun report => sound_returns h (malformed_ends report)
  have hreport : ∀ report, Sound cfg (returns (finishReport cfg a report)) := by
    intro report
    have hends := @finishReport_ends cfg a report
    rw [finishReport] at hends ⊢
    split
    · next hvalid =>
      rw [if_pos hvalid] at hends
      exact sound_returns h hends
    · exact hmalformed report
  rw [finish.eq_def]
  split
  · exact hreport _
  · exact hmalformed _

lemma spawnError_sound (h : Collects cfg a) (payload : Bytes) :
    Sound cfg (returns (spawnError cfg a payload)) := by
  have hends := @spawnError_ends cfg a payload
  rw [spawnError] at hends ⊢
  dsimp only at hends ⊢
  split
  · next hp =>
    rw [if_pos hp] at hends
    exact sound_returns h hends
  · next hp =>
    rw [if_neg hp] at hends
    exact sound_returns h hends

lemma spawned_frame (cfg : Options) (a : Acc) (payload : Bytes) :
    ∃ identity, spawned cfg a payload = { a with identity := identity } := by
  rcases @Keeper.recordIdentity_cases Acc _ false cfg.identityEnabled a (cfg.json payload) with
    h | ⟨identity, h | h⟩
  · exact ⟨a.identity, h⟩
  · exact ⟨some identity, h⟩
  · exact ⟨some identity, h⟩

lemma handleFrame_sound (h : Collects cfg a) (tag : Shim.Tag) (payload : Bytes)
    (queue : Option ℕ) : Sound cfg (handleFrame cfg clock a tag payload queue) := by
  cases tag with
  | stdout => exact h.output .stdout payload queue
  | stderr => exact h.output .stderr payload queue
  | spawned =>
    obtain ⟨identity, heq⟩ := spawned_frame cfg a payload
    rw [handleFrame, heq]
    exact { h with captured := h.captured }
  | tracked => exact h.tracking _ _
  | exit => exact finish_sound h payload
  | error => exact spawnError_sound h payload
  | other => exact h

lemma receive_sound (h : Collects cfg a) : Sound cfg (receive cfg clock a message) := by
  rw [receive.eq_def]
  split
  · exact handleFrame_sound h _ _ _
  · exact sound_returns h (shimExited_ends _)
  · exact h

lemma step_sound (h : Sound cfg s) : Sound cfg (step cfg clock s message) := by
  cases s with
  | returned o a => exact h
  | collecting a =>
    have hdeadlines : Collects cfg (checkDeadlines cfg clock a) := Collects.checkDeadlines h
    rw [step.eq_def]
    dsimp only
    rw [collect]
    dsimp only
    split
    · next o b hcollect =>
      split at hcollect
      · cases hcollect
        exact sound_returns (hdeadlines.reads _) (failure_ends .backstop)
      · cases hcollect
    · next b remaining hcollect =>
      split at hcollect
      · cases hcollect
      · cases hcollect
        exact receive_sound (hdeadlines.reads _)

lemma run_sound (h : Sound cfg s) (messages : List (Option Message)) :
    Sound cfg (run cfg clock s messages) := by
  induction messages generalizing s with
  | nil => exact h
  | cons message messages ih => exact ih (step_sound h)

lemma execute_sound (timeoutMs : ℕ) (deadline : Option Instant) (reads : ℕ) :
    Sound cfg (.collecting (execute cfg clock timeoutMs deadline reads)) := by
  have hlog : arrivals (execute cfg clock timeoutMs deadline reads).log = [] ∧
      cancellation (execute cfg clock timeoutMs deadline reads).log = none ∧
      Run.kills (execute cfg clock timeoutMs deadline reads).log = 0 ∧
      Run.observed (execute cfg clock timeoutMs deadline reads).log = [] ∧
      received (execute cfg clock timeoutMs deadline reads).log = [] := by
    simp only [execute]
    split <;> exact ⟨rfl, rfl, rfl, rfl, rfl⟩
  obtain ⟨harrivals, hcancel, hkills, hobserved, hreceived⟩ := hlog
  have hkept : kept cfg [] = [] := by
    rw [kept]
    split
    · exact List.take_nil
    · rfl
  have hexceeds : ¬exceeds cfg [] := by
    rintro ⟨max, -, hlt⟩
    exact absurd hlt (Nat.not_lt_zero _)
  constructor
  · intro p
    rw [harrivals, hkept]
    cases p <;> rfl
  · rw [harrivals, hkept]
    rfl
  · rw [hcancel]
    rfl
  · rw [hkills]
    rfl
  · rw [harrivals]
    exact iff_of_false (fun h => by cases h) hexceeds
  · rw [harrivals]
    exact iff_of_false (fun h => by cases h) (by simp)
  · rw [hobserved, harrivals, hkept, owed]
    split <;> rfl
  · intro _
    rw [hreceived, harrivals, hkept]

lemma finishTracking_quiet (a : Acc) (t : Tracking) (event : Option TrackingEvent) :
    ({ a with tracking := t }.tell cfg event).reason = a.reason ∧
      credits ({ a with tracking := t }.tell cfg event).log = credits a.log := by
  rcases @tell_cases cfg { a with tracking := t } event with heq | ⟨e, heq⟩
  · rw [heq]
    exact ⟨rfl, rfl⟩
  · rw [heq]
    exact ⟨rfl, rfl⟩

lemma checkDeadlines_quiet (a : Acc) :
    (∀ reason, a.reason = some reason → (checkDeadlines cfg clock a).reason = some reason) ∧
      credits (checkDeadlines cfg clock a).log = credits a.log := by
  rcases checkDeadlines_cases cfg clock a with ⟨n, -, heq⟩ | ⟨n, reason, -, hr, -, heq⟩
  · rw [heq]
    exact ⟨fun _ h => h, rfl⟩
  · rw [heq]
    refine ⟨fun reason' h => ?_, rfl⟩
    cases hr.symm.trans h

lemma output_quiet (a : Acc) (pipe : Pipe) (payload : Bytes) (queue : Option ℕ) :
    (∀ reason, a.reason = some reason →
        (output cfg clock a pipe payload queue).reason = some reason) ∧
      credits (output cfg clock a pipe payload queue).log = credits a.log ++
        if cfg.strict && (output cfg clock a pipe payload queue).reason.isNone then
          [(pipe, payload.length)] else [] := by
  cases hr : a.reason with
  | some reason =>
    have hout : output cfg clock a pipe payload queue =
        { a.add (.received pipe payload (queueFull cfg queue)) with truncated := true } := by
      simp [output, Acc.add, hr]
    have hreason : (output cfg clock a pipe payload queue).reason = some reason := by
      rw [hout]
      exact hr
    refine ⟨fun reason' h => hreason.trans h, ?_⟩
    rw [hreason, hout]
    simp [Acc.add, credits]
  | none =>
    refine ⟨fun reason' h => (nomatch h), ?_⟩
    obtain ⟨b, hs, heq⟩ := @output_open cfg clock _ pipe payload queue hr
    have hb : credits b.log = credits a.log := hs.credits
    have hnone : b.reason = none := hs.reason.trans hr
    rw [heq]
    split
    · simp [cancel, Acc.now, Acc.add, credits, hb]
    · split
      · simp [cancel, Acc.now, Acc.add, credits, hb]
      · split
        · next hstrict => simp [grant, Acc.add, credits, hb, hnone, hstrict]
        · next hstrict => simp [hb, hstrict]

lemma spawnError_quiet (a : Acc) (payload : Bytes) :
    (spawnError cfg a payload).2.reason = a.reason ∧
      credits (spawnError cfg a payload).2.log = credits a.log := by
  rw [spawnError]
  dsimp only
  split <;> exact finishTracking_quiet a _ _

lemma finish_quiet (a : Acc) (payload : Bytes) :
    (finish cfg a payload).2.reason = a.reason ∧
      credits (finish cfg a payload).2.log = credits a.log := by
  have hmalformed : ∀ report, (malformed cfg a report).2.reason = a.reason ∧
      credits (malformed cfg a report).2.log = credits a.log :=
    fun report => finishTracking_quiet a _ _
  rw [finish.eq_def]
  split
  · rw [finishReport]
    split
    · exact finishTracking_quiet a _ _
    · exact hmalformed _
  · exact hmalformed _

lemma receive_quiet (a : Acc) (message : Option Message) :
    (∀ reason, a.reason = some reason →
        (receive cfg clock a message).acc.reason = some reason) ∧
      credits (receive cfg clock a message).acc.log = credits a.log ++
        earned cfg (receive cfg clock a message).acc.reason message := by
  have hsame : ∀ b : Acc, b.reason = a.reason → credits b.log = credits a.log →
      (∀ reason, a.reason = some reason → b.reason = some reason) ∧
        credits b.log = credits a.log ++ [] := by
    intro b hreason hcredits
    exact ⟨fun reason h => hreason.trans h, by rw [hcredits, List.append_nil]⟩
  cases message with
  | none => exact hsame a rfl rfl
  | some m =>
    cases m with
    | exitStatus status =>
      have h := @finishTracking_quiet cfg a
        (a.tracking.finish .unknown .transportLost none false).1
        (a.tracking.finish .unknown .transportLost none false).2
      exact hsame _ h.1 h.2
    | data tag payload queue =>
      cases tag with
      | stdout => exact output_quiet a .stdout payload queue
      | stderr => exact output_quiet a .stderr payload queue
      | spawned =>
        obtain ⟨identity, heq⟩ := spawned_frame cfg a payload
        have h : receive cfg clock a (some (.data .spawned payload queue)) =
            .collecting { a with identity := identity } := congrArg State.collecting heq
        rw [h]
        exact hsame _ rfl rfl
      | tracked =>
        have h := @finishTracking_quiet cfg a (a.tracking.record (cfg.json payload)).1
          ((a.tracking.record (cfg.json payload)).2.map .tracked)
        exact hsame _ h.1 h.2
      | exit =>
        have h := @finish_quiet cfg a payload
        exact hsame _ h.1 h.2
      | error =>
        have h := @spawnError_quiet cfg a payload
        exact hsame _ h.1 h.2
      | other => exact hsame a rfl rfl

lemma earned_returned {o : Outcome} (reason : Option Reason)
    (h : receive cfg clock a message = .returned o b) : earned cfg reason message = [] := by
  cases message with
  | none => rfl
  | some m =>
    cases m with
    | exitStatus status => rfl
    | data tag payload queue =>
      cases tag with
      | stdout => cases h
      | stderr => cases h
      | _ => rfl

lemma step_quiet (a : Acc) (message : Option Message) :
    (∀ reason, a.reason = some reason →
        (step cfg clock (.collecting a) message).acc.reason = some reason) ∧
      (∀ b, step cfg clock (.collecting a) message = .collecting b →
        credits b.log = credits a.log ++ earned cfg b.reason message) ∧
      ∀ o b, step cfg clock (.collecting a) message = .returned o b →
        credits b.log = credits a.log := by
  obtain ⟨hreason, hcredits⟩ := @checkDeadlines_quiet cfg clock a
  rw [step.eq_def]
  dsimp only
  rw [collect]
  dsimp only
  split
  · next o b hcollect =>
    split at hcollect
    · cases hcollect
      refine ⟨fun reason h => ?_, fun b hb => (nomatch hb), fun o b hb => ?_⟩
      · exact (finishTracking_quiet _ _ _).1.trans (hreason reason h)
      · cases hb
        exact (finishTracking_quiet _ _ _).2.trans hcredits
    · cases hcollect
  · next b remaining hcollect =>
    split at hcollect
    · cases hcollect
    · cases hcollect
      have h := @receive_quiet cfg clock
        { checkDeadlines cfg clock a with
          reads := (checkDeadlines cfg clock a).reads + 1 + 1 } message
      refine ⟨fun reason hr => h.1 reason (hreason reason hr), fun c hc => ?_, fun o c hc => ?_⟩
      · have hacc := congrArg State.acc hc
        rw [← hcredits, ← show _ = c from hacc]
        exact h.2
      · have hacc := congrArg State.acc hc
        have hnone := earned_returned (receive cfg clock { checkDeadlines cfg clock a with
          reads := (checkDeadlines cfg clock a).reads + 1 + 1 } message).acc.reason hc
        rw [← hcredits, ← show _ = c from hacc]
        exact h.2.trans (by rw [hnone, List.append_nil])

lemma run_reason (messages : List (Option Message)) (h : s.acc.reason = some reason) :
    (run cfg clock s messages).acc.reason = some reason := by
  induction messages generalizing s with
  | nil => exact h
  | cons message messages ih =>
    apply ih
    cases s with
    | collecting a => exact (step_quiet a message).1 reason h
    | returned o a => exact h

lemma Sound.collects (h : Sound cfg s) : Collects cfg s.acc := by
  cases s with
  | collecting a => exact h
  | returned o a => exact h.1

/-- What the collector kept, told, granted and returned, at every moment of every run. -/
theorem run_collects (cfg : Options) (clock : ℕ → Instant) (timeoutMs : ℕ)
    (deadline : Option Instant) (reads : ℕ) (messages : List (Option Message)) :
    let s := run cfg clock (.collecting (execute cfg clock timeoutMs deadline reads)) messages
    Collects cfg s.acc ∧
      (∀ o a, s = .returned o a → Ends a o) ∧
      (∀ reason later, s.acc.reason = some reason →
        (run cfg clock s later).acc.reason = some reason) ∧
      ∀ a message, s = .collecting a →
        (∀ b, step cfg clock s message = .collecting b →
          credits b.log = credits a.log ++ earned cfg b.reason message) ∧
        ∀ o b, step cfg clock s message = .returned o b → credits b.log = credits a.log := by
  intro s
  have hsound : Sound cfg s := run_sound (execute_sound timeoutMs deadline reads) messages
  refine ⟨hsound.collects, ?_, fun reason later h => run_reason later h, ?_⟩
  · intro o a hs
    rw [hs] at hsound
    exact hsound.2
  · intro a message hs
    rw [hs]
    exact (step_quiet a message).2

def watchedRun : Options :=
  { plainRun with strict := true, outputObserver := true, maxOutputBytes := some 2 }

/-- The observer's queue is full when the third byte comes: two bytes are kept that it is never
sent, and the reason is the limit. The next frame does not cancel, and earns nothing. -/
theorem run_unobserved :
    let s := run watchedRun (fun _ => 0) (.collecting (execute watchedRun (fun _ => 0) 1000 none 0))
      [some (.data .stdout [1, 2, 3] (some 1024)), some (.data .stderr [4] none)]
    s.acc.reason = some .maxOutputBytes ∧ s.acc.stdout = [1, 2] ∧ observed s.acc.log = [] ∧
      credits s.acc.log = [(.stdout, window), (.stderr, window)] := by
  decide

end Forcola.Beam.Run
