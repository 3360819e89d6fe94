import Forcola.Library.Transition
import Forcola.Native.Groups
import Forcola.Native.TrackedExit

/-! Which observed group leaders the consumer is told about. -/

namespace Forcola.Native

open Forcola.Library Forcola.Library.Transition

namespace Supervisor

variable {σ : Type} {cfg : Config} {H : Host σ} {s s' : State σ} {t t' : Tracked σ}
variable {seen : List Label → List ProcessIdentity} {root : ProcessIdentity} {labels : List Label}
variable {ids : List ProcessIdentity}

def checkPeer (cfg : Config) (s : State σ) (t : Tracked σ) (hungUp : Bool) : Tracker σ :=
  if !s.beamGone && hungUp then (beginCleanup cfg t s.clock).tracker else t.tracker

def scanning (cfg : Config) (s : State σ) (l : Label) : Option (Tracker σ) :=
  match l, s.point, s.mode with
  | .tick answers, .top, .tracked t =>
    if s.clock < t.nextScan then none else some (checkPeer cfg s t answers.hungUp)
  | .finish _, .finish, .tracked t => some t.tracker
  | _, _, _ => none

def leadersSeen (cfg : Config) (H : Host σ) (s : State σ) (l : Label) : List ProcessIdentity :=
  (scanning cfg s l).elim [] fun t => (t.scan H).observed

def Ample (cfg : Config) (H : Host σ) (s : State σ) (l : Label) : Prop :=
  ∀ t ∈ scanning cfg s l, t.Ample H

instance (cfg : Config) (H : Host σ) (s : State σ) (l : Label) : Decidable (Ample cfg H s l) :=
  Option.decidableForallMem _

def beginTracked (H : Host σ) (source : σ) (shim root : ProcessIdentity) (clock : Instant)
    (stdout : Pump) (stderr : Option Pump) : State σ :=
  start clock stdout stderr (some (Tracker.withSource H source shim root).takeNewGroups.2)

def Frame.isControl : Frame → Bool
  | .output .. => false
  | _ => true

def State.sent (s : State σ) : List Frame :=
  s.wire.reverse.filter Frame.isControl ++ s.mode.control

/-- The ids announced after the root: all leaders seen, in the order they were first seen. -/
structure Chronicle (seen : List Label → List ProcessIdentity) (root : ProcessIdentity)
    (labels : List Label) (ids : List ProcessIdentity) : Prop where
  all : ∀ id, id ∈ root :: ids ↔ id = root ∨ id ∈ seen labels
  ordered : ∀ as, as <+: labels →
    ∃ pre, pre <+: root :: ids ∧ ∀ id, id ∈ pre ↔ id = root ∨ id ∈ seen as

lemma Chronicle.extend (h : Chronicle seen root labels ids) {l : Label}
    {obs new : List ProcessIdentity} (hseen : seen (labels ++ [l]) = seen labels ++ obs)
    (hnew : ∀ id ∈ new, id ∈ obs) (hobs : ∀ id ∈ obs, id ∈ root :: (ids ++ new)) :
    Chronicle seen root (labels ++ [l]) (ids ++ new) := by
  have hall : ∀ id, id ∈ root :: (ids ++ new) ↔ id = root ∨ id ∈ seen (labels ++ [l]) := by
    intro id
    rw [hseen, List.mem_append]
    constructor
    · rw [← List.cons_append, List.mem_append]
      rintro (hm | hm)
      · exact ((h.all id).mp hm).imp_right .inl
      · exact .inr (.inr (hnew id hm))
    · rintro (rfl | hm | hm)
      · exact List.mem_cons_self
      · rw [← List.cons_append]
        exact List.mem_append_left _ ((h.all id).mpr (.inr hm))
      · exact hobs id hm
  refine ⟨hall, fun as has => ?_⟩
  rcases List.prefix_concat_iff.mp has with rfl | has
  · exact ⟨root :: (ids ++ new), List.prefix_rfl, hall⟩
  · obtain ⟨pre, hpre, hmem⟩ := h.ordered as has
    refine ⟨pre, hpre.trans ?_, hmem⟩
    rw [← List.cons_append]
    exact List.prefix_append _ _

lemma Chronicle.same (h : Chronicle seen root labels ids) {l : Label}
    (hseen : seen (labels ++ [l]) = seen labels) : Chronicle seen root (labels ++ [l]) ids := by
  have he : Chronicle seen root (labels ++ [l]) (ids ++ []) :=
    h.extend (hseen.trans (List.append_nil _).symm) (by simp) (by simp)
  rwa [List.append_nil] at he

def Point.mute : Point → Bool
  | .top | .recv | .finish | .returned _ => true
  | _ => false

inductive Stand (seen : List Label → List ProcessIdentity) (root : ProcessIdentity)
    (labels : List Label) (s : State σ) (t : Tracked σ) : Prop
  | lost : (s.beamGone = true ∧ s.point.mute = true) ∨ t.writer = .failed ∨
        t.historyTruncated = true →
      (∀ report, .exit report ∈ s.sent → report.trackedGroupsTruncated = some true) →
      Stand seen root labels s t
  | telling {told} : s.beamGone = false → t.writer = .running → s.sent = told.map .tracked →
      Chronicle seen root labels told → (∀ id ∈ t.tracker.groups, id ∈ root :: told) →
      Stand seen root labels s t
  | reported {told report} : s.point = .collect ∨ (∃ b, s.point = .returned b) →
      s.sent = told.map .tracked ++ [.exit report] → Chronicle seen root labels told →
      Stand seen root labels s t

def Standing (seen : List Label → List ProcessIdentity) (root : ProcessIdentity)
    (labels : List Label) (s : State σ) : Prop :=
  ∃ t, s.mode = .tracked t ∧ (s.point.ended = false → t.tracker.pending = []) ∧
    Stand seen root labels s t

structure Unannounced (s s' : State σ) (t t' : Tracked σ) : Prop where
  pending : t'.tracker.pending = t.tracker.pending
  groups : ∀ id ∈ t'.tracker.groups, id ∈ t.tracker.groups
  writer : t'.writer = t.writer
  truncated : t'.historyTruncated = t.historyTruncated
  sent : s'.sent = s.sent
  beamGone : s'.beamGone = s.beamGone ∨ (s'.beamGone = true ∧ s'.point.mute = true)
  mute : s.beamGone = true → s.point.mute = true → s'.point.mute = true
  ended : s.point = .collect ∨ (∃ b, s.point = .returned b) →
    s'.point = .collect ∨ (∃ b, s'.point = .returned b)
  loop : s'.point.ended = false → s.point.ended = false

lemma no_exit_tracked {report : ExitReport} :
    Frame.exit report ∉ ids.map (Frame.tracked) := by
  intro h
  obtain ⟨id, -, h⟩ := List.mem_map.mp h
  cases h

lemma Stand.moved (h : Stand seen root labels s t) (hu : Unannounced s s' t t') :
    Stand seen root labels s' t' := by
  cases h with
  | lost hl hx =>
    refine .lost ?_ fun report hr => hx report (hu.sent ▸ hr)
    rcases hl with ⟨hb, hm⟩ | hw | ht
    · left
      refine ⟨?_, hu.mute hb hm⟩
      rcases hu.beamGone with hb' | ⟨hb', -⟩
      · exact hb'.trans hb
      · exact hb'
    · exact .inr (.inl (hu.writer.trans hw))
    · exact .inr (.inr (hu.truncated.trans ht))
  | telling hb hw hs hc hg =>
    rcases hu.beamGone with hb' | ⟨hb', hm'⟩
    · exact .telling (hb'.trans hb) (hu.writer.trans hw) (hu.sent.trans hs) hc
        fun id hid => hg id (hu.groups id hid)
    · refine .lost (.inl ⟨hb', hm'⟩) fun report hr => ?_
      rw [hu.sent, hs] at hr
      exact absurd hr no_exit_tracked
  | reported hp hs hc => exact .reported (hu.ended hp) (hu.sent.trans hs) hc

lemma Stand.same (h : Stand seen root labels s t) {l : Label}
    (hseen : seen (labels ++ [l]) = seen labels) : Stand seen root (labels ++ [l]) s t := by
  cases h with
  | lost hl hx => exact .lost hl hx
  | telling hb hw hs hc hg => exact .telling hb hw hs (hc.same hseen) hg
  | reported hp hs hc => exact .reported hp hs (hc.same hseen)

lemma Standing.unannounced (h : Standing seen root labels s) (hm : s.mode = .tracked t)
    (hm' : s'.mode = .tracked t') (hu : Unannounced s s' t t') {l : Label}
    (hseen : seen (labels ++ [l]) = seen labels) : Standing seen root (labels ++ [l]) s' := by
  obtain ⟨u, hmu, hp, hst⟩ := h
  obtain rfl := Mode.tracked.inj (hm.symm.trans hmu)
  exact ⟨t', hm', fun hl => hu.pending.trans (hp (hu.loop hl)), (hst.moved hu).same hseen⟩

lemma Unannounced.of_eq (htr : t'.tracker = t.tracker) (hw : t'.writer = t.writer)
    (ht : t'.historyTruncated = t.historyTruncated) (hs : s'.sent = s.sent)
    (hb : s'.beamGone = s.beamGone) (hp : s'.point = s.point) : Unannounced s s' t t' :=
  ⟨by rw [htr], fun _ h => htr ▸ h, hw, ht, hs, .inl hb, fun _ h => hp ▸ h, fun h => hp ▸ h,
    fun h => hp ▸ h⟩

lemma pumpOut_sent {p : Pump} {a : PumpAction} :
    (pumpOut s p a).sent = s.sent ∧ (pumpOut s p a).mode = s.mode ∧
      (pumpOut s p a).beamGone = s.beamGone ∧ (pumpOut s p a).point = s.point := by
  rw [pumpOut.eq_def]
  split
  · refine ⟨?_, rfl, rfl, rfl⟩
    simp [State.sent, Frame.isControl]
  · exact ⟨rfl, rfl, rfl, rfl⟩
  · exact ⟨rfl, rfl, rfl, rfl⟩

lemma thread_unannounced {l : Label} (hl : l.thread = true) (hd : ∀ ok, l ≠ .deliver ok)
    (hm : s.mode = .tracked t) (h : step cfg H s l = some s') :
    s'.mode = .tracked t ∧ Unannounced s s' t t := by
  suffices hq : s'.mode = s.mode ∧ s'.sent = s.sent ∧ s'.beamGone = s.beamGone ∧
      s'.point = s.point from
    ⟨hq.1.trans hm, .of_eq rfl rfl rfl hq.2.1 hq.2.2.1 hq.2.2.2⟩
  cases l with
  | send | timer =>
    obtain rfl := Option.some.inj h
    exact ⟨rfl, rfl, rfl, rfl⟩
  | hangUp | elapse =>
    obtain rfl := Option.some.inj h
    exact ⟨rfl, rfl, rfl, rfl⟩
  | closed | readFailed =>
    simp only [step] at h
    split at h
    · cases h
    · obtain rfl := Option.some.inj h
      exact ⟨rfl, rfl, rfl, rfl⟩
  | childExits outcome =>
    have h : childExits s outcome = some s' := h
    rw [childExits] at h
    split at h
    · dsimp only at h
      split at h
      all_goals
        obtain rfl := Option.some.inj h
        exact ⟨rfl, rfl, rfl, rfl⟩
    · cases h
  | pump pipe action =>
    have h : pumpStep s pipe action = some s' := h
    simp only [pumpStep, Option.bind_eq_some_iff] at h
    obtain ⟨p, -, h⟩ := h
    split at h
    · cases h
    · obtain ⟨p', -, rfl⟩ := Option.map_eq_some_iff.mp h
      obtain ⟨h1, h2, h3, h4⟩ := pumpOut_sent (s := s.setPump pipe p') (p := p) (a := action)
      rw [h1, h2, h3, h4]
      cases pipe <;> exact ⟨rfl, rfl, rfl, rfl⟩
  | deliver ok => exact absurd rfl (hd ok)
  | _ => cases hl

lemma Stand.deliver (h : Stand seen root labels s t) (hm : s.mode = .tracked t) {ok : Bool}
    (hs : Supervisor.deliver s ok = some s') {l : Label}
    (hseen : seen (labels ++ [l]) = seen labels) :
    ∃ t', s'.mode = .tracked t' ∧ t'.tracker = t.tracker ∧ s'.point = s.point ∧
      Stand seen root (labels ++ [l]) s' t' := by
  rw [Supervisor.deliver, hm] at hs
  dsimp only at hs
  split at hs
  · next frame rest hw hc =>
    have hsent : s.sent = s.wire.reverse.filter Frame.isControl ++ (frame :: rest) := by
      rw [State.sent, hm, Mode.control, hc]
    split at hs
    · obtain rfl := Option.some.inj hs
      refine ⟨{ t with control := rest }, rfl, rfl, rfl, ?_⟩
      have hnew : State.sent { s with
          wire := frame :: s.wire
          mode := .tracked { t with control := rest } } =
          s.wire.reverse.filter Frame.isControl ++
            ((if frame.isControl then [frame] else []) ++ rest) := by
        simp only [State.sent, List.reverse_cons, List.filter_append, Mode.control]
        rw [List.append_assoc]
        congr 2
        cases hf : frame.isControl <;> simp [hf]
      have hsame : frame.isControl = true → State.sent { s with
          wire := frame :: s.wire
          mode := .tracked { t with control := rest } } = s.sent := by
        intro hf
        rw [hnew, hsent, hf]
        rfl
      cases h with
      | lost hl hx =>
        refine .lost hl fun report hr => hx report ?_
        rw [hnew] at hr
        rw [hsent]
        cases hf : frame.isControl with
        | true => simpa [hf] using hr
        | false =>
          simp only [hf, Bool.false_eq_true, if_false, List.nil_append, List.mem_append] at hr
          simp only [List.mem_append, List.mem_cons]
          tauto
      | @telling told hb hw' hs' hc' hg =>
        have hf : frame.isControl = true := by
          have hmem : frame ∈ told.map Frame.tracked := by
            rw [← hs', hsent]
            simp
          obtain ⟨id, -, rfl⟩ := List.mem_map.mp hmem
          rfl
        exact .telling hb hw' ((hsame hf).trans hs') (hc'.same hseen) hg
      | @reported told report hp hs' hc' =>
        have hf : frame.isControl = true := by
          have hmem : frame ∈ told.map Frame.tracked ++ [.exit report] := by
            rw [← hs', hsent]
            simp
          rcases List.mem_append.mp hmem with hmem | hmem
          · obtain ⟨id, -, rfl⟩ := List.mem_map.mp hmem
            rfl
          · obtain rfl := List.mem_singleton.mp hmem
            rfl
        exact .reported hp ((hsame hf).trans hs') (hc'.same hseen)
    · split at hs
      · cases hs
      · obtain rfl := Option.some.inj hs
        refine ⟨_, rfl, rfl, rfl, .lost (.inr (.inl rfl)) fun report hr => ?_⟩
        have hr : Frame.exit report ∈ s.wire.reverse.filter Frame.isControl := by
          simpa [State.sent, push, State.setTracked, Mode.control] using hr
        cases h with
        | lost hl hx =>
          apply hx
          rw [hsent]
          exact List.mem_append_left _ hr
        | telling hb hw' hs' hc' hg =>
          have hr' := List.mem_append_left (frame :: rest) hr
          rw [← hsent, hs'] at hr'
          exact absurd hr' no_exit_tracked
        | @reported told report' hp hs' hc' =>
          -- EXIT is the last control frame, so it was not on the wire yet
          obtain ⟨init, last, hlast⟩ := List.eq_nil_or_concat (frame :: rest) |>.resolve_left
            (List.cons_ne_nil _ _)
          rw [hs', hlast, List.concat_eq_append, ← List.append_assoc] at hsent
          obtain ⟨hwire, -⟩ := List.append_inj' hsent rfl
          have hr' := List.mem_append_left init hr
          rw [← hwire] at hr'
          exact absurd hr' no_exit_tracked
  · cases hs

lemma announce_frame (s : State σ) (t : Tracked σ) (ids : List ProcessIdentity) :
    (announce s t ids).2.writer = t.writer ∧
      (t.historyTruncated = true → (announce s t ids).2.historyTruncated = true) ∧
      (announce s t ids).2.tracker.pending = t.tracker.pending ∧
      (announce s t ids).2.tracker.groups = t.tracker.groups := by
  induction ids generalizing t with
  | nil => exact ⟨rfl, fun h => h, rfl, rfl⟩
  | cons id rest ih =>
    rw [announce]
    split
    · exact ih t
    · split
      · rw [announce_gone _ _ _ rfl]
        exact ⟨rfl, fun h => h, rfl, rfl⟩
      · split
        · exact ih { t with control := t.control ++ [.tracked id] }
        · obtain ⟨hw, ht, hp, hg⟩ := ih { t with historyTruncated := true }
          exact ⟨hw, fun _ => ht rfl, hp, hg⟩

lemma announce_queued (hb : s.beamGone = false) (hw : t.writer = .running)
    (ids : List ProcessIdentity) :
    (announce s t ids).1 = s ∧ ((announce s t ids).2.historyTruncated = true ∨
      (announce s t ids).2.control = t.control ++ ids.map .tracked) := by
  induction ids generalizing t with
  | nil => exact ⟨rfl, .inr (by simp [announce])⟩
  | cons id rest ih =>
    rw [announce, if_neg (by simp [hb])]
    split
    · next hf => simp [hw] at hf
    · split
      · obtain ⟨hs, ht | hc⟩ := ih (t := { t with control := t.control ++ [.tracked id] }) hw
        · exact ⟨hs, .inl ht⟩
        · refine ⟨hs, .inr ?_⟩
          rw [hc]
          simp
      · exact ⟨(ih (t := { t with historyTruncated := true }) hw).1,
          .inl ((announce_frame _ _ rest).2.1 rfl)⟩

lemma announceFinal_truncated (ids : List ProcessIdentity) (h : t.historyTruncated = true) :
    (announceFinal t ids).historyTruncated = true := by
  induction ids generalizing t with
  | nil => exact h
  | cons id rest ih =>
    rw [announceFinal]
    split
    · exact ih h
    · exact ih rfl

lemma announceFinal_running (ids : List ProcessIdentity) :
    (announceFinal t ids).historyTruncated = true ∨
      (announceFinal t ids).control = t.control ++ ids.map .tracked := by
  induction ids generalizing t with
  | nil => exact .inr (by simp [announceFinal])
  | cons id rest ih =>
    rw [announceFinal]
    split
    · rcases ih (t := { t with control := t.control ++ [.tracked id] }) with ht | hc
      · exact .inl ht
      · right
        rw [hc]
        simp
    · exact .inl (announceFinal_truncated rest rfl)

structure Relayed (s s' : State σ) (t t' : Tracked σ) (news : List ProcessIdentity) : Prop where
  gone : s.beamGone = true → s'.beamGone = true ∧ s'.point.mute = true
  failed : t.writer = .failed → t'.writer = .failed
  truncated : t.historyTruncated = true → t'.historyTruncated = true
  sent : ∀ f ∈ s'.sent, f ∈ s.sent ∨ ∃ id, f = .tracked id
  told : s.beamGone = false → t.writer = .running →
    (s'.beamGone = true ∧ s'.point.mute = true) ∨ t'.historyTruncated = true ∨
      (s'.beamGone = false ∧ t'.writer = .running ∧ s'.sent = s.sent ++ news.map .tracked)

lemma Stand.told {u u' : Tracker σ} {news : List ProcessIdentity} {l : Label}
    (h : Stand seen root labels s t) (hp : s.point = .top ∨ s.point = .finish)
    (ha : Tracker.Announces u u' news) (hu : u.groups = t.tracker.groups)
    (hlimit : failures .groupLimit u'.log = failures .groupLimit u.log)
    (hseen : seen (labels ++ [l]) = seen labels ++ u'.observed)
    (hg : ∀ id ∈ t'.tracker.groups, id ∈ u'.groups) (ht : Relayed s s' t t' news) :
    Stand seen root (labels ++ [l]) s' t' := by
  have hexit : ∀ report, Frame.exit report ∈ s'.sent → Frame.exit report ∈ s.sent := by
    intro report hr
    rcases ht.sent _ hr with hr | ⟨id, hr⟩
    · exact hr
    · cases hr
  cases h with
  | lost hl hx =>
    refine .lost ?_ fun report hr => hx report (hexit report hr)
    rcases hl with ⟨hb, -⟩ | hw | htr
    · exact .inl (ht.gone hb)
    · exact .inr (.inl (ht.failed hw))
    · exact .inr (.inr (ht.truncated htr))
  | @telling told hb hw hs hc hgroups =>
    have hnone : ∀ report, Frame.exit report ∉ s'.sent := by
      intro report hr
      have hr := hexit report hr
      rw [hs] at hr
      exact no_exit_tracked hr
    have hmem : ∀ id ∈ u'.groups, id ∈ root :: (told ++ news) := by
      intro id hid
      rw [← List.cons_append, List.mem_append]
      rcases (ha.groups id).mp hid with ⟨hid, -⟩ | hid
      · exact .inl (hgroups id (hu ▸ hid))
      · exact .inr hid
    rcases ht.told hb hw with hgone | htr | ⟨hb', hw', hs'⟩
    · exact .lost (.inl hgone) fun report hr => absurd hr (hnone report)
    · exact .lost (.inr (.inr htr)) fun report hr => absurd hr (hnone report)
    · refine .telling hb' hw' (by rw [hs', hs, List.map_append]) ?_
        fun id hid => hmem id (hg id hid)
      exact hc.extend hseen ha.seen fun id hid => hmem id (ha.all hlimit id hid)
  | reported hpt => rcases hp with hp | hp <;> simp [hp] at hpt

lemma beginCleanup_kept (t : Tracked σ) (now : Instant) :
    (beginCleanup cfg t now).tracker.pending = t.tracker.pending ∧
      (beginCleanup cfg t now).tracker.groups = t.tracker.groups := by
  rw [beginCleanup, Tracker.beginCleanup]
  split <;> exact ⟨rfl, rfl⟩

lemma checkPeer_kept (s : State σ) (t : Tracked σ) (hungUp : Bool) :
    (checkPeer cfg s t hungUp).pending = t.tracker.pending ∧
      (checkPeer cfg s t hungUp).groups = t.tracker.groups := by
  rw [checkPeer]
  split
  · exact beginCleanup_kept t s.clock
  · exact ⟨rfl, rfl⟩

lemma sampled_told {hungUp : Bool} {news : List ProcessIdentity} (hm : s.mode = .tracked t)
    (hp : s.point = .top) (hpend : t.tracker.pending = [])
    (ha : Tracker.Announces (checkPeer cfg s t hungUp) ((checkPeer cfg s t hungUp).scan H) news) :
    Relayed s ((sampled cfg H s t hungUp).1.setTracked (sampled cfg H s t hungUp).2) t
        (sampled cfg H s t hungUp).2 news ∧
      (sampled cfg H s t hungUp).1.point = .top ∧
      (sampled cfg H s t hungUp).2.tracker.pending = [] ∧
      (sampled cfg H s t hungUp).2.tracker.groups = ((checkPeer cfg s t hungUp).scan H).groups := by
  have hnews : ((checkPeer cfg s t hungUp).scan H).pending = news := by
    rw [ha.pending, (checkPeer_kept s t hungUp).1, hpend, List.nil_append]
  have hsent : ∀ s1 : State σ, s1.wire = s.wire → ∀ u : Tracked σ,
      (s1.setTracked u).sent = s.wire.reverse.filter Frame.isControl ++ u.control := by
    intro s1 hw u
    rw [State.sent, ← hw]
    rfl
  have hold : s.sent = s.wire.reverse.filter Frame.isControl ++ t.control := by
    rw [State.sent, hm]
    rfl
  rw [sampled]
  generalize hb : (if !s.beamGone && hungUp then
    ({ s with beamGone := true, discardOutput := true }, beginCleanup cfg t s.clock)
    else (s, t)) = b
  obtain ⟨s1, u1⟩ := b
  have h1 : u1.tracker = checkPeer cfg s t hungUp ∧ u1.control = t.control ∧
      u1.writer = t.writer ∧ u1.historyTruncated = t.historyTruncated ∧ s1.wire = s.wire ∧
      s1.point = .top ∧ (s.beamGone = true → s1.beamGone = true) := by
    split at hb
    · next hc =>
      obtain ⟨rfl, rfl⟩ := Prod.mk.inj hb
      exact ⟨(if_pos hc).symm, rfl, rfl, rfl, rfl, hp, fun _ => rfl⟩
    · next hc =>
      obtain ⟨rfl, rfl⟩ := Prod.mk.inj hb
      exact ⟨(if_neg hc).symm, rfl, rfl, rfl, rfl, hp, fun h => h⟩
  obtain ⟨htr, hc, hw, hh, hwire, hp1, hgone⟩ := h1
  dsimp only [Tracker.takeNewGroups]
  rw [htr, hnews]
  generalize hu2 : ({ u1 with tracker := { (checkPeer cfg s t hungUp).scan H with pending := [] } } :
    Tracked σ) = u2
  have hu2c : u2.control = t.control := by rw [← hu2]; exact hc
  have hu2w : u2.writer = t.writer := by rw [← hu2]; exact hw
  have hu2h : u2.historyTruncated = t.historyTruncated := by rw [← hu2]; exact hh
  have hu2p : u2.tracker.pending = [] := by rw [← hu2]
  have hu2g : u2.tracker.groups = ((checkPeer cfg s t hungUp).scan H).groups := by rw [← hu2]
  obtain ⟨fw, fh, fp, fg⟩ := announce_frame s1 u2 news
  obtain ⟨⟨bg, hs2⟩, -, hctl⟩ := announce_announced s1 u2 news
  have hpoint : (announce s1 u2 news).1.point = .top := by
    rw [hs2]
    exact hp1
  have hwire2 : (announce s1 u2 news).1.wire = s.wire := by
    rw [hs2]
    exact hwire
  refine ⟨⟨?_, ?_, ?_, ?_, ?_⟩, hpoint, fp.trans hu2p, fg.trans hu2g⟩
  · intro hb
    rw [announce_gone s1 u2 news (hgone hb)]
    exact ⟨hgone hb, by show s1.point.mute = true; rw [hp1]; rfl⟩
  · exact fun h => (fw.trans hu2w).trans h
  · exact fun h => fh (hu2h.trans h)
  · intro f hf
    rw [hsent _ hwire2] at hf
    rw [hold]
    rcases List.mem_append.mp hf with hf | hf
    · exact .inl (List.mem_append_left _ hf)
    · rcases hctl f hf with hf | hf
      · exact .inl (List.mem_append_right _ (hu2c ▸ hf))
      · exact .inr hf
  · intro hb hwr
    cases hbg : s1.beamGone with
    | true =>
      left
      rw [announce_gone s1 u2 news hbg]
      exact ⟨hbg, by show s1.point.mute = true; rw [hp1]; rfl⟩
    | false =>
      right
      obtain ⟨hs3, htrunc | hcontrol⟩ := announce_queued hbg (hu2w.trans hwr) news
      · exact .inl htrunc
      · refine .inr ⟨?_, fw.trans (hu2w.trans hwr), ?_⟩
        · show (announce s1 u2 news).1.beamGone = false
          rw [hs3]
          exact hbg
        · rw [hsent _ hwire2, hold, hcontrol, hu2c, List.append_assoc]

lemma Unannounced.of_steady (hs : Tracker.Steady t.tracker t'.tracker) (hw : t'.writer = t.writer)
    (ht : t'.historyTruncated = t.historyTruncated) (hc : s'.sent = s.sent)
    (hb : s'.beamGone = s.beamGone ∨ (s'.beamGone = true ∧ s'.point.mute = true))
    (hp : s.point.ended = false) (hm : s'.point.mute = true) : Unannounced s s' t t' := by
  refine ⟨hs.pending, fun id h => (hs.groups id).mp h, hw, ht, hc, hb, fun _ _ => hm, ?_, fun _ => hp⟩
  rintro (h | ⟨b, h⟩) <;> simp [h, Point.ended] at hp

lemma giveUp_frame (s : State σ) (t : Tracked σ) :
    Tracker.Steady t.tracker (giveUp cfg s t).2.tracker ∧ (giveUp cfg s t).2.control = t.control ∧
      (giveUp cfg s t).2.writer = t.writer ∧
      (giveUp cfg s t).2.historyTruncated = t.historyTruncated ∧
      (giveUp cfg s t).1.wire = s.wire ∧ (giveUp cfg s t).1.beamGone = s.beamGone := by
  rw [giveUp]
  split
  · exact ⟨.of_eq (beginCleanup_kept t s.clock).1 (beginCleanup_kept t s.clock).2, rfl, rfl, rfl, rfl, rfl⟩
  · exact ⟨.refl _, rfl, rfl, rfl, rfl, rfl⟩

lemma sent_tracked (hm : s.mode = .tracked t) (hm' : s'.mode = .tracked t')
    (hw : s'.wire = s.wire) (hc : t'.control = t.control) : s'.sent = s.sent := by
  rw [State.sent, State.sent, hm, hm', hw, Mode.control, Mode.control, hc]

lemma cleanupTick_unannounced (hp : s.point = .top) (hm : s.mode = .tracked t) {u : Tracked σ}
    {s1 : State σ} {advancing : Duration} (hs : Tracker.Steady t.tracker u.tracker)
    (hc : u.control = t.control) (hw : u.writer = t.writer)
    (ht : u.historyTruncated = t.historyTruncated) (hwire : s1.wire = s.wire)
    (hb : s1.beamGone = s.beamGone) :
    ∃ t', (cleanupTick H s1 u advancing).mode = .tracked t' ∧
      Unannounced s (cleanupTick H s1 u advancing) t t' := by
  rw [cleanupTick]
  dsimp only
  generalize hs2 : (if s1.discardOutput then State.cancel { s1 with inputClosed := true }
    else { s1 with inputClosed := true }) = s2
  have h2 : s2.wire = s.wire ∧ s2.beamGone = s.beamGone := by
    rw [← hwire, ← hb, ← hs2]
    split <;> exact ⟨rfl, rfl⟩
  obtain ⟨hwire2, hb2⟩ := h2
  have hadv := hs.trans (Tracker.Steady.advance (H := H) u.tracker s2.clock)
  have hloop : s.point.ended = false := by
    rw [hp]
    rfl
  generalize u.tracker.advance H s2.clock = a at hadv
  obtain ⟨progress, tracker⟩ := a
  dsimp only at hadv ⊢
  split
  · exact ⟨_, rfl, .of_steady hadv hw ht (sent_tracked hm rfl hwire2 hc) (.inl hb2) hloop rfl⟩
  · exact ⟨_, rfl, .of_steady hadv hw ht (sent_tracked hm rfl hwire2 hc) (.inl hb2) hloop rfl⟩

lemma tick_standing {answers : TickAnswers} {l : Label} (h : Standing seen root labels s)
    (hm : s.mode = .tracked t) (hp : s.point = .top)
    (hearly : s.clock < t.nextScan → seen (labels ++ [l]) = seen labels)
    (hdue : ¬ s.clock < t.nextScan →
      seen (labels ++ [l]) = seen labels ++ ((checkPeer cfg s t answers.hungUp).scan H).observed ∧
      failures .groupLimit ((checkPeer cfg s t answers.hungUp).scan H).log =
        failures .groupLimit (checkPeer cfg s t answers.hungUp).log)
    (hs : tick cfg H s t answers = some s') : Standing seen root (labels ++ [l]) s' := by
  have hloop : s.point.ended = false := by
    rw [hp]
    rfl
  rw [tick] at hs
  split at hs
  · next hlt =>
    obtain rfl := Option.some.inj hs
    have hq : Unannounced s { s with point := .recv } t t :=
      .of_steady (.refl _) rfl rfl rfl (.inl rfl) hloop rfl
    exact h.unannounced hm (by exact hm) hq (hearly hlt)
  · next hlt =>
    split at hs
    · cases hs
    · obtain ⟨u, hmu, hpend, hst⟩ := h
      obtain rfl := Mode.tracked.inj (hm.symm.trans hmu)
      obtain ⟨hseen, hlimit⟩ := hdue hlt
      obtain ⟨news, ha⟩ := Tracker.scan_announces (H := H) (checkPeer cfg s t answers.hungUp)
      obtain ⟨htold, hp1, hpend1, hg1⟩ := sampled_told hm hp (hpend hloop) ha
      generalize sampled cfg H s t answers.hungUp = r1 at hs htold hp1 hpend1 hg1
      obtain ⟨s1, u1⟩ := r1
      dsimp only at hs htold hp1 hpend1 hg1
      have hst1 := hst.told (.inl hp) ha (checkPeer_kept s t answers.hungUp).2 hlimit hseen
        (fun id hid => hg1 ▸ hid) htold
      obtain ⟨hsteady, hc2, hw2, ht2, hwire2, hb2⟩ :=
        giveUp_frame { s1 with clock := s1.clock + answers.scanning } u1
      generalize giveUp cfg { s1 with clock := s1.clock + answers.scanning } u1 = r2
        at hs hsteady hc2 hw2 ht2 hwire2 hb2
      obtain ⟨s2, u2⟩ := r2
      dsimp only at hs hsteady hc2 hw2 ht2 hwire2 hb2
      have hm1 : (s1.setTracked u1).mode = .tracked u1 := rfl
      have hp1 : (s1.setTracked u1).point = .top := hp1
      have hfinal : ∃ t', s'.mode = .tracked t' ∧ Unannounced (s1.setTracked u1) s' u1 t' := by
        split at hs
        · obtain rfl := Option.some.inj hs
          exact cleanupTick_unannounced hp1 hm1 hsteady hc2 hw2 ht2 hwire2 hb2
        · obtain rfl := Option.some.inj hs
          refine ⟨_, rfl, .of_steady hsteady hw2 ht2 (sent_tracked hm1 rfl hwire2 hc2) (.inl hb2)
            ?_ rfl⟩
          rw [hp1]
          rfl
      obtain ⟨t', hm', hu⟩ := hfinal
      exact ⟨t', hm', fun _ => hu.pending.trans hpend1, hst1.moved hu⟩

lemma handleTracked_frame (hm : s.mode = .tracked t) (e : Event) :
    ∃ t', (handleTracked cfg s t e).mode = .tracked t' ∧
      Tracker.Steady t.tracker t'.tracker ∧ t'.control = t.control ∧ t'.writer = t.writer ∧
      t'.historyTruncated = t.historyTruncated ∧ (handleTracked cfg s t e).wire = s.wire ∧
      ((handleTracked cfg s t e).beamGone = s.beamGone ∨
        (handleTracked cfg s t e).beamGone = true) := by
  obtain ⟨hp, hg⟩ := beginCleanup_kept t s.clock
  have hclean := Tracker.Steady.of_eq hp hg
  cases e with
  | stdin frame =>
    cases frame with
    | credit payload =>
      rw [handleTracked, State.grantStdout]
      split <;> exact ⟨t, hm, .refl _, rfl, rfl, rfl, rfl, .inl rfl⟩
    | stderrCredit payload =>
      rw [handleTracked, State.grantStderr]
      split <;> exact ⟨t, hm, .refl _, rfl, rfl, rfl, rfl, .inl rfl⟩
    | kill => exact ⟨_, rfl, hclean, rfl, rfl, rfl, rfl, .inl rfl⟩
    | other tag => exact ⟨t, hm, .refl _, rfl, rfl, rfl, rfl, .inl rfl⟩
  | stdinClosed | stdinError | trackingWriteFailed =>
    exact ⟨_, rfl, hclean, rfl, rfl, rfl, rfl, .inr rfl⟩
  | timedOut =>
    rw [handleTracked]
    split
    · exact ⟨_, rfl, hclean, rfl, rfl, rfl, rfl, .inl rfl⟩
    · exact ⟨t, hm, .refl _, rfl, rfl, rfl, rfl, .inl rfl⟩
  | childWaitFailed => exact ⟨_, rfl, .of_eq rfl rfl, rfl, rfl, rfl, rfl, .inl rfl⟩
  | childExited outcome => exact ⟨_, rfl, hclean, rfl, rfl, rfl, rfl, .inl rfl⟩

lemma receive_unannounced {answers : KillAnswers} (hm : s.mode = .tracked t) (hp : s.point = .recv)
    (hs : receive cfg s answers = some s') :
    ∃ t', s'.mode = .tracked t' ∧ Unannounced s s' t t' := by
  rw [receive] at hs
  split at hs
  · cases hs
  · next e rest _ =>
    simp only [hm] at hs
    obtain rfl := Option.some.inj hs
    have hm0 : State.mode { s with queue := rest, seen := e :: s.seen } = .tracked t := hm
    obtain ⟨t', hm', hst, hc, hw, ht, hwire, hb⟩ := handleTracked_frame hm0 e
    simp only [hm] at hm' hwire hb
    refine ⟨t', hm', .of_steady hst hw ht (sent_tracked hm hm' hwire hc) ?_ (by rw [hp]; rfl) rfl⟩
    rcases hb with hb | hb
    · exact .inl hb
    · exact .inr ⟨hb, rfl⟩

lemma disconnected_unannounced (hm : s.mode = .tracked t) (hp : s.point = .recv)
    (hs : disconnected cfg s = some s') : ∃ t', s'.mode = .tracked t' ∧ Unannounced s s' t t' := by
  simp only [disconnected, hm] at hs
  split at hs
  · obtain rfl := Option.some.inj hs
    obtain ⟨hpend, hg⟩ := beginCleanup_kept t s.clock
    exact ⟨_, rfl, .of_steady (.of_eq hpend hg) rfl rfl (sent_tracked hm rfl rfl rfl)
      (.inr ⟨rfl, rfl⟩) (by rw [hp]; rfl) rfl⟩
  · cases hs

lemma Kept.unannounced (hk : Kept s s') (hm : s.mode = .tracked t) (hm' : s'.mode = .tracked t)
    (hw : s'.wire = s.wire) (hend : s.point.ended = true ∧ s.point.mute = false)
    (hend' : s'.point.ended = true)
    (hc : s.point = .collect → ∃ b, s'.point = .returned b) : Unannounced s s' t t := by
  refine ⟨rfl, fun _ h => h, rfl, rfl, sent_tracked hm hm' hw rfl, .inl hk.beamGone, ?_, ?_, ?_⟩
  · intro _ hmute
    rw [hend.2] at hmute
    cases hmute
  · rintro (h | ⟨b, h⟩)
    · exact .inr (hc h)
    · rw [h] at hend
      cases hend.2
  · intro h
    rw [hend'] at h
    cases h

lemma strictStep_frame {completed : ℕ} {point : StrictPoint} {hungUp : Bool}
    (h : strictStep s completed point hungUp = some s') : s'.mode = s.mode ∧ s'.wire = s.wire := by
  rw [strictStep.eq_def] at h
  cases point with
  | check =>
    dsimp only at h
    split at h
    · split at h
      · split at h
        · cases h
        · obtain rfl := Option.some.inj h
          exact ⟨rfl, rfl⟩
      · obtain rfl := Option.some.inj h
        exact ⟨rfl, rfl⟩
    · obtain rfl := Option.some.inj h
      exact ⟨rfl, rfl⟩
  | poll =>
    dsimp only at h
    split at h
    · obtain rfl := Option.some.inj h
      exact ⟨rfl, rfl⟩
    · next e rest _ =>
      obtain rfl := Option.some.inj h
      cases e with
      | stdin frame =>
        cases frame with
        | credit payload =>
          rw [strictEvent, State.grantStdout]
          split <;> exact ⟨rfl, rfl⟩
        | stderrCredit payload =>
          rw [strictEvent, State.grantStderr]
          split <;> exact ⟨rfl, rfl⟩
        | kill | other => exact ⟨rfl, rfl⟩
      | _ => exact ⟨rfl, rfl⟩
  | wait =>
    dsimp only at h
    split at h
    · obtain rfl := Option.some.inj h
      exact ⟨rfl, rfl⟩
    · split at h
      all_goals
        obtain rfl := Option.some.inj h
        exact ⟨rfl, rfl⟩

lemma drainStep_frame {remaining deadline : ℕ} {cut : Bool}
    (h : drainStep s remaining deadline cut = some s') : s'.mode = s.mode ∧ s'.wire = s.wire := by
  cases remaining with
  | zero =>
    obtain rfl := Option.some.inj h
    exact ⟨rfl, rfl⟩
  | succ remaining =>
    simp only [drainStep] at h
    split at h
    · obtain rfl := Option.some.inj h
      exact ⟨rfl, rfl⟩
    · split at h
      · obtain rfl := Option.some.inj h
        exact ⟨rfl, rfl⟩
      · split at h
        · obtain rfl := Option.some.inj h
          exact ⟨rfl, rfl⟩
        · cases h

lemma collectStep_frame (h : collectStep s = some s') :
    s'.mode = s.mode ∧ s'.wire = s.wire ∧ ∃ b, s'.point = .returned b := by
  rw [collectStep] at h
  split at h
  · cases h
  · split at h
    · obtain rfl := Option.some.inj h
      exact ⟨rfl, rfl, true, rfl⟩
    · split at h
      · obtain rfl := Option.some.inj h
        exact ⟨rfl, rfl, false, rfl⟩
      · cases h

lemma report_stand {truncated ok : Bool} (h : Stand seen root labels s t) (hm : s.mode = .tracked t)
    (hp : s.point = .report truncated) (hs : reportStep cfg H s truncated ok = some s') :
    ∃ t', s'.mode = .tracked t' ∧ s'.point.ended = true ∧ Stand seen root labels s' t' := by
  rw [reportStep] at hs
  dsimp only at hs
  split at hs
  · next u hu => cases hm.symm.trans hu
  next u hu =>
  obtain rfl := Mode.tracked.inj (hm.symm.trans hu)
  split at hs
  · next hw =>
    obtain rfl := Option.some.inj hs
    refine ⟨t, hm, rfl, .lost (.inr (.inl hw)) fun report hr => ?_⟩
    cases h with
    | lost hl hx => exact hx report hr
    | telling _ hw' => simp [hw] at hw'
    | reported hpt => simp [hp] at hpt
  · next hw =>
    split at hs
    · obtain rfl := Option.some.inj hs
      refine ⟨_, rfl, rfl, ?_⟩
      have hsent : State.sent { s.setTracked { t with
          control := t.control ++ [Frame.exit (s.exitReport cfg H truncated)] } with
          point := .collect } = s.sent ++ [.exit (s.exitReport cfg H truncated)] := by
        simp [State.sent, hm, State.setTracked, Mode.control]
      cases h with
      | lost hl hx =>
        rcases hl with ⟨-, hmute⟩ | hf | ht
        · rw [hp] at hmute
          cases hmute
        · simp [hw] at hf
        · refine .lost (.inr (.inr ht)) fun report hr => ?_
          rw [hsent, List.mem_append, List.mem_singleton] at hr
          rcases hr with hr | hr
          · exact hx report hr
          · obtain rfl := Frame.exit.inj hr
            simp [State.exitReport, hm, ht]
      | telling _ _ hsent' hc =>
        have hs' := hsent.trans (congrArg (· ++ _) hsent')
        exact .reported (.inl rfl) hs' hc
      | reported hpt => simp [hp] at hpt
    · cases hs

lemma finish_told {answers : FinishAnswers} {news : List ProcessIdentity} (hm : s.mode = .tracked t)
    (hpend : t.tracker.pending = []) (ha : Tracker.Announces t.tracker (t.tracker.scan H) news) :
    ∃ t', (finishTracked cfg H s t answers).mode = .tracked t' ∧
      (finishTracked cfg H s t answers).point.ended = true ∧
      (∀ id ∈ t'.tracker.groups, id ∈ (t.tracker.scan H).groups) ∧
      Relayed s (finishTracked cfg H s t answers) t t' news := by
  have hst := Tracker.Steady.finishScan (H := H) t.tracker
  have hold : s.sent = s.wire.reverse.filter Frame.isControl ++ t.control := by
    rw [State.sent, hm]
    rfl
  rw [finishTracked]
  generalize t.tracker.finishScan H = r at hst
  obtain ⟨final, tracker⟩ := r
  dsimp only [Tracker.takeNewGroups] at hst ⊢
  have hnews : tracker.pending = news := by
    rw [hst.pending, ha.pending, hpend, List.nil_append]
  rw [hnews]
  generalize hs0 : reapTracked { s with inputClosed := true, clock := s.clock + answers.took }
    (reapRoot answers.reaps) = s0
  obtain ⟨-, -, hw⟩ := finishCgroup_frame s0 answers.cgroupDrained
  have hb : (finishCgroup cfg s0 answers.cgroupDrained).beamGone = s0.beamGone := by
    rw [finishCgroup]
    split <;> rfl
  generalize finishCgroup cfg s0 answers.cgroupDrained = s1 at hw hb ⊢
  have hw1 : s1.wire = s.wire := hw.trans (hs0 ▸ rfl)
  have hb1 : s1.beamGone = s.beamGone := hb.trans (hs0 ▸ rfl)
  split
  · next hgone =>
    refine ⟨_, rfl, rfl, fun id h => (hst.groups id).mp h, fun _ => ⟨hgone, rfl⟩, fun h => h,
      fun h => h, fun f hf => .inl ?_, fun _ _ => .inl ⟨hgone, rfl⟩⟩
    rw [hold, ← hw1]
    exact hf
  · next hgone =>
    rw [hb1] at hgone
    generalize hu : ({ t with
      tracker := { tracker with pending := [] }
      finalConfirmed := final
      reaped := reapRoot answers.reaps } : Tracked σ) = u
    have hframe := announceFinal_announced u news
    have hrun := announceFinal_running (t := u) news
    have htr := announceFinal_truncated (t := u) news
    generalize announceFinal u news = u1 at hframe hrun htr ⊢
    obtain ⟨hk, hend⟩ := chooseDrain_kept (s1.setTracked u1)
    have hframe2 : (chooseDrain cfg (s1.setTracked u1)).mode = .tracked u1 ∧
        (chooseDrain cfg (s1.setTracked u1)).wire = s.wire := by
      rw [chooseDrain]
      split
      · exact ⟨rfl, hw1⟩
      · split <;> exact ⟨rfl, hw1⟩
    obtain ⟨hm2, hw2⟩ := hframe2
    have hsent : (chooseDrain cfg (s1.setTracked u1)).sent =
        s.wire.reverse.filter Frame.isControl ++ u1.control := by
      rw [State.sent, hm2, hw2]
      rfl
    have huc : u.control = t.control := by rw [← hu]
    have huw : u.writer = t.writer := by rw [← hu]
    have huh : u.historyTruncated = t.historyTruncated := by rw [← hu]
    refine ⟨u1, hm2, hend, fun id h => ?_, fun h => absurd h hgone, fun h => ?_, fun h => ?_,
      fun f hf => ?_, fun hb hwr => ?_⟩
    · rw [hframe.tracker, ← hu] at h
      exact (hst.groups id).mp h
    · rw [hframe.writer, huw, h]
    · exact htr (huh.trans h)
    · rw [hsent] at hf
      rw [hold]
      rcases List.mem_append.mp hf with hf | hf
      · exact .inl (List.mem_append_left _ hf)
      · rcases hframe.control f hf with hf | hf
        · exact .inl (List.mem_append_right _ (huc ▸ hf))
        · exact .inr hf
    · rcases hrun with htrunc | hc
      · exact .inr (.inl htrunc)
      · refine .inr (.inr ⟨?_, ?_, ?_⟩)
        · exact (hk.beamGone.trans hb1).trans hb
        · rw [hframe.writer, huw, hwr]
        · rw [hsent, hold, hc, huc, List.append_assoc]

lemma leadersSeen_none {l : Label} (h : scanning cfg s l = none) : leadersSeen cfg H s l = [] := by
  rw [leadersSeen, h]
  rfl

lemma leadersSeen_some {l : Label} {u : Tracker σ} (h : scanning cfg s l = some u) :
    leadersSeen cfg H s l = (u.scan H).observed := by
  rw [leadersSeen, h]
  rfl

lemma Standing.step {l : Label} (h : Standing seen root labels s)
    (hs : Supervisor.step cfg H s l = some s') (ha : Ample cfg H s l)
    (hseen : seen (labels ++ [l]) = seen labels ++ leadersSeen cfg H s l) :
    Standing seen root (labels ++ [l]) s' := by
  obtain ⟨t, hm, hpend, hst⟩ := id h
  have hquiet : scanning cfg s l = none → seen (labels ++ [l]) = seen labels := by
    intro hn
    rw [hseen, leadersSeen_none hn, List.append_nil]
  by_cases hl : l.thread = true
  · have hn : scanning cfg s l = none := by
      cases l <;> first | rfl | cases hl
    by_cases hd : ∃ ok, l = .deliver ok
    · obtain ⟨ok, rfl⟩ := hd
      obtain ⟨t', hm', htr, hp, hst'⟩ := hst.deliver hm hs (hquiet hn)
      exact ⟨t', hm', fun hend => htr ▸ hpend (hp ▸ hend), hst'⟩
    · obtain ⟨hm', hu⟩ := thread_unannounced hl (fun ok he => hd ⟨ok, he⟩) hm hs
      exact h.unannounced hm hm' hu (hquiet hn)
  rw [Supervisor.step.eq_def] at hs
  split at hs
  iterate 9 exact absurd rfl hl
  · next answers hp =>
    simp only [hm] at hs
    refine tick_standing h hm hp (fun hlt => hquiet ?_) (fun hlt => ?_) hs
    · simp [scanning, hp, hm, hlt]
    · have hsc : scanning cfg s (.tick answers) = some (checkPeer cfg s t answers.hungUp) := by
        simp [scanning, hp, hm, hlt]
      exact ⟨by rw [hseen, leadersSeen_some hsc], (ha _ hsc).unlimited⟩
  · next answers hp =>
    obtain ⟨t', hm', hu⟩ := receive_unannounced hm hp hs
    exact h.unannounced hm hm' hu (hquiet (by simp [scanning]))
  · next hp =>
    rw [timeout] at hs
    split at hs
    · cases hs
    · split at hs
      · obtain rfl := Option.some.inj hs
        have hq : Unannounced s { s with point := .top } t t :=
          .of_steady (.refl _) rfl rfl rfl (.inl rfl) (by rw [hp]; rfl) rfl
        exact h.unannounced hm (by exact hm) hq (hquiet (by simp [scanning]))
      · cases hs
  · next hp =>
    obtain ⟨t', hm', hu⟩ := disconnected_unannounced hm hp hs
    exact h.unannounced hm hm' hu (hquiet (by simp [scanning]))
  · next answers hp =>
    simp only [hm] at hs
    obtain rfl := Option.some.inj hs
    have hsc : scanning cfg s (.finish answers) = some t.tracker := by simp [scanning, hp, hm]
    obtain ⟨news, hn⟩ := Tracker.scan_announces (H := H) t.tracker
    obtain ⟨t', hm', hend, hg, htold⟩ :=
      finish_told hm (hpend (by rw [hp]; rfl)) hn
    refine ⟨t', hm', fun hf => ?_, hst.told (.inr hp) hn rfl (ha _ hsc).unlimited ?_ hg htold⟩
    · rw [hend] at hf
      cases hf
    · rw [hseen, leadersSeen_some hsc]
  · next hungUp completed point hp =>
    obtain ⟨hk, hend⟩ := strictStep_kept hp hs
    obtain ⟨hmode, hwire⟩ := strictStep_frame hs
    exact h.unannounced hm (hmode.trans hm) (hk.unannounced hm (hmode.trans hm) hwire
      (by simp [hp, Point.ended, Point.mute]) hend (by simp [hp])) (hquiet (by simp [scanning]))
  · next hp =>
    obtain ⟨hk, hend⟩ := drainStep_kept hs
    obtain ⟨hmode, hwire⟩ := drainStep_frame hs
    exact h.unannounced hm (hmode.trans hm) (hk.unannounced hm (hmode.trans hm) hwire
      (by simp [hp, Point.ended, Point.mute]) hend (by simp [hp])) (hquiet (by simp [scanning]))
  · next hp =>
    obtain ⟨t', hm', hend, hst'⟩ := report_stand hst hm hp hs
    refine ⟨t', hm', fun hf => ?_, hst'.same (hquiet (by simp [scanning]))⟩
    rw [hend] at hf
    cases hf
  · next hp =>
    obtain ⟨hk, hend⟩ := collectStep_kept hs
    obtain ⟨hmode, hwire, hret⟩ := collectStep_frame hs
    exact h.unannounced hm (hmode.trans hm) (hk.unannounced hm (hmode.trans hm) hwire
      (by simp [hp, Point.ended, Point.mute]) hend (fun _ => hret)) (hquiet (by simp [scanning]))
  · cases hs

def runLeaders (cfg : Config) (H : Host σ) (s : State σ) : List Label → List ProcessIdentity :=
  observe (step cfg H) (leadersSeen cfg H) s

lemma beginTracked_standing (source : σ) (shim root : ProcessIdentity) (clock : Instant)
    (stdout : Pump) (stderr : Option Pump) :
    Standing (runLeaders cfg H (beginTracked H source shim root clock stdout stderr)) root []
      (beginTracked H source shim root clock stdout stderr) := by
  refine ⟨_, rfl, fun _ => rfl, .telling rfl rfl (rfl : _ = List.map Frame.tracked []) ⟨?_, ?_⟩ ?_⟩
  · intro id
    simp [runLeaders, observe]
  · intro as has
    obtain rfl := List.prefix_nil.mp has
    refine ⟨[root], List.prefix_rfl, fun id => ?_⟩
    simp [runLeaders, observe]
  · intro id hid
    rcases (AList.mem_insert _).mp hid with rfl | hid
    · exact List.mem_cons_self
    · exact absurd hid (AList.notMem_empty _)

def Frame.tracked? : Frame → Option ProcessIdentity
  | .tracked id => some id
  | _ => none

def announced (wire : List Frame) : List ProcessIdentity :=
  wire.reverse.filterMap Frame.tracked?

lemma filterMap_control (l : List Frame) :
    (l.filter Frame.isControl).filterMap Frame.tracked? = l.filterMap Frame.tracked? := by
  induction l with
  | nil => rfl
  | cons f rest ih =>
    cases f with
    | output => exact ih
    | tracked id => exact congrArg (id :: ·) ih
    | exit => exact ih

lemma Standing.chronicle {report : ExitReport} {before after : List Frame}
    (h : Standing seen root labels s) (hw : s.wire = after ++ .exit report :: before)
    (hf : report.trackedGroupsTruncated = some false) :
    Chronicle seen root labels (announced before) := by
  obtain ⟨t, hm, -, hst⟩ := h
  have hsent : s.sent = before.reverse.filter Frame.isControl ++
      (.exit report :: (after.reverse.filter Frame.isControl ++ t.control)) := by
    have hx : (Frame.exit report).isControl = true := rfl
    simp [State.sent, hw, hm, Mode.control, hx]
  have hmem : Frame.exit report ∈ s.sent := by
    rw [hsent]
    exact List.mem_append_right _ List.mem_cons_self
  cases hst with
  | lost hl hx =>
    rw [hx report hmem] at hf
    cases hf
  | telling _ _ hs =>
    rw [hs] at hmem
    exact absurd hmem no_exit_tracked
  | @reported told report' hp hs hc =>
    have heq : told = announced before := by
      rw [hs] at hsent
      -- EXIT is the last control frame and the only one that is no announcement
      have hpre : told.map Frame.tracked = before.reverse.filter Frame.isControl := by
        rcases List.eq_nil_or_concat (after.reverse.filter Frame.isControl ++ t.control) with hn | ⟨m, f, hn⟩
        · rw [hn] at hsent
          exact (List.append_inj' hsent rfl).1
        · rw [hn, List.concat_eq_append, ← List.cons_append, ← List.append_assoc] at hsent
          have hin : Frame.exit report ∈ told.map Frame.tracked := by
            rw [(List.append_inj' hsent rfl).1]
            simp
          exact absurd hin no_exit_tracked
      rw [announced, ← filterMap_control, ← hpre, List.filterMap_map]
      have hsome : Frame.tracked? ∘ Frame.tracked = some := rfl
      rw [hsome, List.filterMap_some]
    exact heq ▸ hc

/-- While every scan has room for its groups, an EXIT with a complete history comes after every
leader the scans saw, in the order they were first seen and after the root. -/
theorem history_honest (cfg : Config) (H : Host σ) (source : σ) (shim root : ProcessIdentity)
    (clock : Instant) (stdout : Pump) (stderr : Option Pump) (labels : List Label) (s : State σ)
    (h : Run (fun s l s' => step cfg H s l = some s' ∧ Ample cfg H s l)
      (beginTracked H source shim root clock stdout stderr) labels s)
    (before after : List Frame) (report : ExitReport)
    (hw : s.wire = after ++ .exit report :: before)
    (hf : report.trackedGroupsTruncated = some false) :
    Chronicle (runLeaders cfg H (beginTracked H source shim root clock stdout stderr)) root labels
      (announced before) := by
  have hrun := h.history (I := fun as s => Run (fun s l s' => step cfg H s l = some s')
      (beginTracked H source shim root clock stdout stderr) as s ∧
      Standing (runLeaders cfg H (beginTracked H source shim root clock stdout stderr)) root as s)
    (fun as s l s' hs hst => ⟨hs.1.snoc hst.1, hs.2.step hst.1 hst.2 (observe_snoc hs.1)⟩)
    ⟨.nil _, beginTracked_standing source shim root clock stdout stderr⟩
  exact hrun.2.chronicle hw hf

section Visit

def visitMachine (ends : ℕ) : Host ℕ where
  platform := .linux
  read pid n :=
    (.ok (if pid = 1 then some ⟨leader 1, 0, false⟩
      else if pid = 2 then some ⟨leader 2, 1, decide (ends ≤ n)⟩
      else if pid = 3 ∧ n < ends then some ⟨leader 3, 2, false⟩ else none), n + 1)
  children pid n := (.ok (if pid = 1 then [2] else if pid = 2 ∧ n < ends then [3] else []), n)
  groupMembers _ n := (.ok [], n)
  signal _ _ n := (.ok (), n)
  reap _ n := (.ok (), n)
  now reference n := (reference, n)
  order l n := (l, n)
  order_perm l _ := .refl l

def visitStart : State ℕ :=
  beginTracked (visitMachine 8) 0 (leader 1) (leader 2) 0 (.new .stdout false) none

def visitLabels : List Label :=
  [.tick ⟨false, 0, 0⟩, .deliver true, .childExits (some ⟨some 0, none⟩), .receive ⟨[], [], []⟩,
    .tick ⟨false, 0, 0⟩, .elapse sampleInterval, .timeout, .tick ⟨false, 0, 0⟩,
    .finish ⟨0, [.exited ⟨some 0, none⟩], [true]⟩, .pump .stdout .permit,
    .pump .stdout (.read .eof), .pump .stdout .done, .drain, .drain, .report true, .deliver true]

def visitRun : Option (State ℕ) :=
  exec (guarded (Ample quietConfig (visitMachine 8)) (step quietConfig (visitMachine 8))) visitStart
    visitLabels

theorem history_honest_visit :
    ∃ s, visitRun = some s ∧ s.wire = [] ++ .exit quietReport :: [.tracked (leader 3)] ∧
      Chronicle (runLeaders quietConfig (visitMachine 8) visitStart) (leader 2) visitLabels
        (announced [.tracked (leader 3)]) := by
  have hwire : visitRun.any (fun s => decide (s.wire = [] ++ .exit quietReport ::
      [.tracked (leader 3)])) = true := by
    decide +kernel
  obtain ⟨s, hs, hw⟩ := Option.any_eq_true .. |>.mp hwire
  have hw := of_decide_eq_true hw
  exact ⟨s, hs, hw, history_honest quietConfig (visitMachine 8) 0 (leader 1) (leader 2) 0
    (.new .stdout false) none visitLabels s (exec_guarded hs) _ [] _ hw rfl⟩

end Visit

lemma announce_room (hb : s.beamGone = false) (hw : t.writer = .running) (ids : List ProcessIdentity)
    (hroom : t.control.length + ids.length ≤ maxGroups) :
    announce s t ids = (s, { t with control := t.control ++ ids.map .tracked }) := by
  induction ids generalizing t with
  | nil => simp [announce]
  | cons id rest ih =>
    rw [List.length_cons] at hroom
    rw [announce, if_neg (by simp [hb])]
    split
    · next hf => simp [hw] at hf
    · rw [if_pos (by omega), ih]
      · simp
      · exact hw
      · rw [List.length_append, List.length_singleton]
        omega

lemma announceFinal_room (hw : t.writer = .running) (ids : List ProcessIdentity)
    (hroom : t.control.length + ids.length ≤ maxGroups) :
    announceFinal t ids = { t with control := t.control ++ ids.map .tracked } := by
  induction ids generalizing t with
  | nil => simp [announceFinal]
  | cons id rest ih =>
    rw [List.length_cons] at hroom
    rw [announceFinal, if_pos ⟨hw, by omega⟩, ih]
    · simp
    · exact hw
    · rw [List.length_append, List.length_singleton]
      omega

lemma exec_deliver (cfg : Config) (l : List Frame) (hm : s.mode = .tracked t) (hw : t.writer = .running)
    (hc : t.control = l) : exec (step cfg H) s (List.replicate l.length (.deliver true)) =
      some { s with wire := l.reverse ++ s.wire, mode := .tracked { t with control := [] } } := by
  induction l generalizing s t with
  | nil =>
    obtain ⟨tracker, control, writer, truncated, next, confirmed, final, reaped⟩ := t
    obtain rfl : control = [] := hc
    obtain ⟨⟩ := s
    obtain rfl := hm
    rfl
  | cons frame rest ih =>
    have hstep : step cfg H s (.deliver true) =
        some { s with wire := frame :: s.wire, mode := .tracked { t with control := rest } } := by
      show deliver s true = _
      rw [deliver, hm]
      dsimp only
      rw [hw, hc]
      rfl
    rw [List.length_cons, List.replicate_succ, exec, hstep]
    refine (ih (s := { s with wire := frame :: s.wire, mode := .tracked { t with control := rest } })
      rfl hw rfl).trans ?_
    simp

structure Poised (point : Point) (clock : Instant) (told : List ProcessIdentity) (s : State σ)
    (t : Tracked σ) : Prop where
  mode : s.mode = .tracked t
  point : s.point = point
  clock : s.clock = clock
  queue : s.queue = []
  beamGone : s.beamGone = false
  writer : t.writer = .running
  control : t.control = []
  complete : t.historyTruncated = false
  wire : s.wire = (told.map Frame.tracked).reverse
  pending : t.tracker.pending = []

lemma Poised.delivered (point : Point) (told : List ProcessIdentity) {c : Instant}
    {news : List ProcessIdentity}
    (hm : s.mode = .tracked t) (hc : t.control = news.map .tracked)
    (h : Poised point c told { s with mode := .tracked { t with control := [] } }
      { t with control := [] }) :
    ∃ s', exec (Supervisor.step cfg H) s (List.replicate news.length (.deliver true)) = some s' ∧
      Poised point c (told ++ news) s' { t with control := [] } ∧ s'.outcome = s.outcome ∧
      s'.stderr = s.stderr := by
  have hrun := exec_deliver (H := H) cfg _ hm h.writer hc
  rw [List.length_map] at hrun
  refine ⟨_, hrun, ⟨rfl, h.point, h.clock, h.queue, h.beamGone, h.writer, rfl, h.complete, ?_,
    h.pending⟩, rfl, rfl⟩
  have hw : s.wire = (told.map Frame.tracked).reverse := h.wire
  simp [hw]

def sweep (cfg : Config) (H : Host σ) (t : Tracker σ) (c : Instant) : Progress × Tracker σ :=
  (Tracker.beginCleanup (t.scan H).takeNewGroups.2 c cfg.interruptGrace cfg.killGrace).advance H c

lemma sampled_poised {c : Instant} {told : List ProcessIdentity} (h : Poised .top c told s t)
    (hroom : (t.tracker.scan H).pending.length ≤ maxGroups) :
    sampled cfg H s t false = (s, { t with
      tracker := (t.tracker.scan H).takeNewGroups.2
      control := (t.tracker.scan H).pending.map .tracked }) := by
  rw [sampled]
  simp only [Bool.and_false, Bool.false_eq_true, if_false]
  rw [announce_room h.beamGone]
  · simp only [h.control, List.nil_append]
    rfl
  · exact h.writer
  · simp only [h.control, List.length_nil, Nat.zero_add]
    exact hroom

lemma giveUp_begins {c : Instant} (hc : s.clock = c)
    (hclean : t.tracker.cleaning = true ∨ t.tracker.uncertain = true) :
    ∃ d, giveUp cfg s t = ({ s with discardOutput := d }, beginCleanup cfg t c) := by
  rw [giveUp]
  split
  · exact ⟨true, by rw [hc]⟩
  · next hn =>
    have hcl : t.tracker.cleaning = true := by
      rcases hclean with h | h
      · exact h
      · simpa [h] using hn
    obtain ⟨cleanup, hsome⟩ := Option.isSome_iff_exists.mp hcl
    have hsame : beginCleanup cfg t c = t := by
      rw [beginCleanup, Tracker.beginCleanup, hsome]
    exact ⟨s.discardOutput, by rw [hsame]⟩

lemma Poised.tick {c : Instant} {told : List ProcessIdentity} (h : Poised .top c told s t)
    (hdue : t.nextScan ≤ c) (hroom : (t.tracker.scan H).pending.length ≤ maxGroups)
    (hclean : t.tracker.cleaning = true ∨ (t.tracker.scan H).uncertain = true) :
    ∃ s' t', exec (Supervisor.step cfg H) s (.tick ⟨false, 0, 0⟩ ::
        List.replicate (t.tracker.scan H).pending.length (.deliver true)) = some s' ∧
      t'.tracker = (sweep cfg H t.tracker c).2 ∧
      Poised (if (sweep cfg H t.tracker c).1.done &&
          (s.outcome.isSome || t'.tracker.expired c) then .finish else .recv)
        c (told ++ (t.tracker.scan H).pending) s' t' ∧
      (s'.point = .recv → t'.nextScan = c + sampleInterval) ∧ s'.outcome = s.outcome := by
  have hcleaning : (t.tracker.scan H).takeNewGroups.2.cleaning = t.tracker.cleaning := by
    obtain ⟨i, hs⟩ := Tracker.scan_scanned (H := H) t.tracker
    exact congrArg Option.isSome hs.cleanup
  generalize hu : (t.tracker.scan H).takeNewGroups.2 = u at hcleaning
  have hun : u.uncertain = (t.tracker.scan H).uncertain := hu ▸ rfl
  have hpu : u.pending = [] := hu ▸ rfl
  obtain ⟨d, hgive⟩ := giveUp_begins (s := { s with clock := s.clock + 0 })
    (t := { t with tracker := u, control := (t.tracker.scan H).pending.map .tracked }) h.clock
    (by rw [← hun, ← hcleaning] at hclean; exact hclean)
  have hb : (beginCleanup cfg { t with
      tracker := u
      control := (t.tracker.scan H).pending.map .tracked } c).tracker.cleaning = true :=
    beginCleanup_cleaning ..
  have htick : Supervisor.step cfg H s (.tick ⟨false, 0, 0⟩) =
      some (cleanupTick H { s with discardOutput := d } (beginCleanup cfg { t with
        tracker := u
        control := (t.tracker.scan H).pending.map .tracked } c) 0) := by
    rw [step_tick h.point h.mode, Supervisor.tick,
      if_neg (by rw [h.clock]; exact Nat.not_lt.mpr hdue)]
    simp only [Bool.false_and, Bool.false_eq_true, if_false]
    rw [sampled_poised h hroom, hu]
    dsimp only
    rw [hgive]
    dsimp only
    rw [if_pos hb]
    rfl
  rw [exec, htick, Option.bind_some]
  generalize hv : (beginCleanup cfg { t with
    tracker := u
    control := (t.tracker.scan H).pending.map .tracked } c) = v at hb ⊢
  have hvt : v.tracker = Tracker.beginCleanup u c cfg.interruptGrace cfg.killGrace := hv ▸ rfl
  have hvp : v.tracker.pending = [] := by
    rw [hvt, Tracker.beginCleanup]
    split <;> exact hpu
  have hvc : v.control = (t.tracker.scan H).pending.map .tracked := hv ▸ rfl
  have hvw : v.writer = .running := hv ▸ h.writer
  have hvh : v.historyTruncated = false := hv ▸ h.complete
  have hsweep : sweep cfg H t.tracker c = v.tracker.advance H c := by
    rw [sweep, hu, hvt]
  have hadv := Tracker.Steady.advance (H := H) v.tracker c
  rw [hsweep, cleanupTick]
  dsimp only
  generalize hs3 : (if d = true then State.cancel { s with discardOutput := d, inputClosed := true }
    else { s with discardOutput := d, inputClosed := true }) = s3
  have h3 : s3.clock = c ∧ s3.queue = [] ∧ s3.beamGone = false ∧
      s3.wire = (told.map Frame.tracked).reverse ∧ s3.outcome = s.outcome := by
    rw [← hs3]
    split <;> exact ⟨h.clock, h.queue, h.beamGone, h.wire, rfl⟩
  obtain ⟨hc3, hq3, hb3, hw3, ho3⟩ := h3
  rw [hc3, ho3]
  generalize v.tracker.advance H c = a at hadv
  obtain ⟨progress, tracker⟩ := a
  dsimp only at hadv ⊢
  split
  · next hdone =>
    obtain ⟨s', he, hp, ho, -⟩ := Poised.delivered (H := H) .finish told (c := c) (s := { s3 with
        clock := c
        outcome := s.outcome
        point := .finish
        left := some c
        mode := .tracked { v with
          tracker := tracker
          confirmed := progress.confirmed && s.outcome.isSome } }) rfl hvc
      ⟨rfl, rfl, rfl, hq3, hb3, hvw, rfl, hvh, hw3, hadv.pending.trans hvp⟩
    refine ⟨s', { v with
      tracker := tracker
      control := []
      confirmed := progress.confirmed && s.outcome.isSome }, he, rfl, ?_, fun hpt => ?_, ho⟩
    · rw [if_pos hdone]
      exact hp
    · rw [hp.point] at hpt
      cases hpt
  · next hdone =>
    obtain ⟨s', he, hp, ho, -⟩ := Poised.delivered (H := H) .recv told (c := c) (s := { s3 with
        clock := c + 0
        outcome := s.outcome
        point := .recv
        mode := .tracked { v with tracker := tracker, nextScan := c + 0 + sampleInterval } }) rfl hvc
      ⟨rfl, rfl, rfl, hq3, hb3, hvw, rfl, hvh, hw3, hadv.pending.trans hvp⟩
    refine ⟨s', { v with
      tracker := tracker
      control := []
      nextScan := c + 0 + sampleInterval }, he, rfl, ?_, fun _ => rfl, ho⟩
    rw [if_neg hdone]
    exact hp

lemma Poised.report {c deadline : Instant} {told : List ProcessIdentity} {remaining : ℕ} {cut : Bool}
    (h : Poised (.drain (remaining + 1) deadline cut) c told s t)
    (hd : deadline ≤ c + outputDrainGrace) :
    ∃ s' report, exec (Supervisor.step cfg H) s
        [.elapse outputDrainGrace, .drain, .report true, .deliver true] = some s' ∧
      s'.wire = .exit report :: (told.map Frame.tracked).reverse ∧
      report.trackedGroupsTruncated = some false := by
  have helapse : Supervisor.step cfg H s (.elapse outputDrainGrace) =
      some { s with clock := s.clock + outputDrainGrace } := rfl
  have hdrain : Supervisor.step cfg H { s with clock := s.clock + outputDrainGrace } .drain =
      some { s with clock := s.clock + outputDrainGrace, point := .report true } := by
    simp only [Supervisor.step, h.point, drainStep]
    rw [if_pos (by rw [h.clock]; exact hd)]
  generalize hs1 : { s with clock := s.clock + outputDrainGrace, point := Point.report true } = s1
    at hdrain
  have hm1 : s1.mode = .tracked t := hs1 ▸ h.mode
  have hp1 : s1.point = .report true := hs1 ▸ rfl
  have hw1 : s1.wire = (told.map Frame.tracked).reverse := hs1 ▸ h.wire
  have hreport : Supervisor.step cfg H s1 (.report true) = some { s1.setTracked { t with
      control := [.exit (s1.exitReport cfg H true)] } with point := .collect } := by
    simp only [Supervisor.step, hp1, reportStep]
    rw [hm1]
    dsimp only
    rw [h.writer, h.control]
    rfl
  have hdeliver := exec_deliver (H := H) (s := { s1.setTracked { t with
      control := [.exit (s1.exitReport cfg H true)] } with point := .collect }) cfg _ rfl h.writer rfl
  have hrun := (exec_cons helapse).trans
    ((exec_cons hdrain).trans ((exec_cons hreport).trans hdeliver))
  refine ⟨_, s1.exitReport cfg H true, hrun, ?_, ?_⟩
  · exact congrArg (_ :: ·) hw1
  · simp only [State.exitReport, hm1, h.complete]

lemma Poised.finish {c : Instant} {told : List ProcessIdentity} (h : Poised .finish c told s t)
    (hcfg : cfg.strictOutput = false) (hroom : (t.tracker.scan H).pending.length ≤ maxGroups) :
    ∃ s' report, exec (Supervisor.step cfg H) s (.finish ⟨0, [], []⟩ ::
        (List.replicate (t.tracker.scan H).pending.length (.deliver true) ++
          [.elapse outputDrainGrace, .drain, .report true, .deliver true])) = some s' ∧
      s'.wire = .exit report :: ((told ++ (t.tracker.scan H).pending).map Frame.tracked).reverse ∧
      report.trackedGroupsTruncated = some false := by
  have hsteady := Tracker.Steady.finishScan (H := H) t.tracker
  have hstep : Supervisor.step cfg H s (.finish ⟨0, [], []⟩) =
      some (finishTracked cfg H s t ⟨0, [], []⟩) := by
    simp only [Supervisor.step, h.point, h.mode]
  rw [exec, hstep, Option.bind_some, finishTracked]
  generalize t.tracker.finishScan H = r at hsteady
  obtain ⟨final, tracker⟩ := r
  dsimp only [Tracker.takeNewGroups] at hsteady ⊢
  rw [hsteady.pending]
  generalize hs0 : reapTracked { s with inputClosed := true, clock := s.clock + 0 } (reapRoot []) = s0
  have h0 : s0.clock = c ∧ s0.queue = [] ∧ s0.beamGone = false ∧
      s0.wire = (told.map Frame.tracked).reverse := by
    rw [← hs0]
    exact ⟨h.clock, h.queue, h.beamGone, h.wire⟩
  have h1 : (finishCgroup cfg s0 []).clock = c ∧ (finishCgroup cfg s0 []).queue = [] ∧
      (finishCgroup cfg s0 []).beamGone = false ∧
      (finishCgroup cfg s0 []).wire = (told.map Frame.tracked).reverse := by
    rw [finishCgroup]
    split <;> exact h0
  generalize finishCgroup cfg s0 [] = s1 at h1
  obtain ⟨hc1, hq1, hb1, hw1⟩ := h1
  rw [if_neg (by simp [hb1]), announceFinal_room (by exact h.writer) _ (by simpa [h.control] using hroom),
    chooseDrain, if_neg (by simp [hcfg])]
  generalize hu : ({ t with
    tracker := { tracker with pending := [] }
    control := t.control ++ (t.tracker.scan H).pending.map .tracked
    finalConfirmed := final
    reaped := reapRoot [] } : Tracked σ) = u
  have huc : u.control = (t.tracker.scan H).pending.map .tracked := by
    rw [← hu]
    simp [h.control]
  have huw : u.writer = .running := hu ▸ h.writer
  have huh : u.historyTruncated = false := hu ▸ h.complete
  have hup : u.tracker.pending = [] := hu ▸ rfl
  generalize hs2 : (if (s1.setTracked u).discardOutput = true then (s1.setTracked u).cancel
    else (s1.setTracked u).uncork).startDrain (s1.setTracked u).pumps
      (s1.setTracked u).discardOutput = s2
  have h2 : s2.mode = .tracked u ∧ s2.clock = c ∧ s2.queue = [] ∧ s2.beamGone = false ∧
      s2.wire = (told.map Frame.tracked).reverse ∧
      s2.point = .drain (s1.stderr.toList.length + 1) (c + outputDrainGrace) s1.discardOutput := by
    rw [← hs2, ← hc1, ← Nat.add_comm 1]
    split <;> exact ⟨rfl, rfl, hq1, hb1, hw1, rfl⟩
  obtain ⟨hm2, hc2, hq2, hb2, hw2, hp2⟩ := h2
  obtain ⟨s3, he3, hp3, -, -⟩ := Poised.delivered (H := H) _ told hm2 huc
    ⟨rfl, hp2, hc2, hq2, hb2, huw, rfl, huh, hw2, hup⟩
  obtain ⟨s4, report, he4, hw4, hr4⟩ := hp3.report (H := H) le_rfl
  refine ⟨s4, report, ?_, hw4, hr4⟩
  exact exec_trans he3 he4

lemma sweep_begins {t : Tracker σ} {c : Instant} (hc : t.cleanup = none) :
    (sweep cfg H t c).1.done = false ∧ ∃ cleanup, (sweep cfg H t c).2.cleanup = some cleanup ∧
      cleanup.deadline = c + cfg.interruptGrace.getD 0 + cfg.killGrace + confirmGrace := by
  obtain ⟨i, hs⟩ := Tracker.scan_scanned (H := H) t
  have hbegin : (Tracker.beginCleanup (t.scan H).takeNewGroups.2 c cfg.interruptGrace
      cfg.killGrace).cleanup = some ⟨cfg.interruptGrace, cfg.killGrace,
        c + cfg.interruptGrace.getD 0 + cfg.killGrace + confirmGrace, 0⟩ := by
    have hn : (t.scan H).takeNewGroups.2.cleanup = none := hs.cleanup.trans hc
    rw [Tracker.beginCleanup, hn]
  obtain ⟨n, ha⟩ := Tracker.advance_advanced (H := H) hbegin c
  refine ⟨?_, _, ha.cleanup, rfl⟩
  rw [sweep, Bool.eq_false_iff]
  intro hdone
  have hpos : 0 < confirmGrace := by decide
  have hn : n ≤ 1 := by
    rw [ha.count]
    split <;> simp
  rcases ha.done.mp hdone with h | h
  · omega
  · have h : c + cfg.interruptGrace.getD 0 + cfg.killGrace + confirmGrace ≤ c := h
    rw [Nat.add_assoc, Nat.add_assoc] at h
    have hlt := Nat.add_pos_right (cfg.interruptGrace.getD 0) (Nat.add_pos_right cfg.killGrace hpos)
    exact absurd h (Nat.not_le.mpr (Nat.lt_add_of_pos_right hlt))

lemma sweep_late {t : Tracker σ} {c : Instant} {cleanup : Cleanup} (hc : t.cleanup = some cleanup)
    (hd : cleanup.deadline ≤ c) :
    (sweep cfg H t c).1.done = true ∧ (sweep cfg H t c).2.expired c = true := by
  obtain ⟨i, hs⟩ := Tracker.scan_scanned (H := H) t
  have hsame : (Tracker.beginCleanup (t.scan H).takeNewGroups.2 c cfg.interruptGrace
      cfg.killGrace).cleanup = some cleanup := by
    have hn : (t.scan H).takeNewGroups.2.cleanup = some cleanup := hs.cleanup.trans hc
    rw [Tracker.beginCleanup, hn]
    exact hn
  obtain ⟨n, ha⟩ := Tracker.advance_advanced (H := H) hsame c
  refine ⟨ha.done.mpr (.inr hd), ?_⟩
  rw [sweep, Tracker.expired, ha.cleanup]
  exact decide_eq_true hd

section Crowd

def crowdId (pid : ℕ) : ProcessIdentity :=
  ⟨pid, pid, .macos pid 0⟩

def crowd : World where
  record pid :=
    if pid = 1 then some ⟨crowdId 1, 0, false⟩
    else if pid = 2 then some ⟨crowdId 2, 1, false⟩
    else if 2 < pid ∧ pid < 3 + maxGroups then some ⟨crowdId pid, 2, false⟩
    else none
  children pid := if pid = 2 then (List.range maxGroups).map (· + 3) else []
  members _ := []
  keyed := by
    intro pid r h
    split at h
    · obtain rfl := Option.some.inj h
      exact Eq.symm ‹pid = 1›
    · split at h
      · obtain rfl := Option.some.inj h
        exact Eq.symm ‹pid = 2›
      · split at h
        · obtain rfl := Option.some.inj h
          rfl
        · cases h

def crowdTracker : Tracker Unit :=
  .withSource (crowd.host .macos) () (crowdId 1) (crowdId 2)

def crowdConfig : Config where
  killGrace := 0
  interruptGrace := none
  cgroup := false
  strictOutput := false

def InCrowd (pid : ℕ) : Prop :=
  2 ≤ pid ∧ pid < 3 + maxGroups

lemma crowd_record {pid : ℕ} (h : InCrowd pid) :
    ∃ r, crowd.record pid = some r ∧ r.identity = crowdId pid ∧ r.exited = false ∧
      (pid ≠ 2 → r.ppid = 2) := by
  obtain ⟨hl, hu⟩ := h
  have h1 : pid ≠ 1 := by omega
  by_cases h2 : pid = 2
  · subst h2
    exact ⟨_, rfl, rfl, rfl, fun h => absurd rfl h⟩
  · have hr : crowd.record pid = some ⟨crowdId pid, 2, false⟩ := by
      simp only [crowd, h1, h2, if_false]
      rw [if_pos ⟨by omega, hu⟩]
    exact ⟨_, hr, rfl, rfl, fun _ => rfl⟩

structure Crowded (told : List ProcessIdentity) (t : Tracker Unit) : Prop where
  bounded : Tracker.Bounded crowdTracker t
  table : ∀ p r, t.processes.lookup p = some r → InCrowd p ∧ crowd.record p = some r
  root : (t.processes.lookup 2).isSome = true
  groups : ∀ id ∈ t.groups, ∃ p, InCrowd p ∧ id = crowdId p
  told : ∀ id ∈ told, id ∈ t.groups

namespace Crowded

variable {t : Tracker Unit} {told : List ProcessIdentity}

lemma descends (h : Crowded told t) (p : ℕ) : Tracker.Descends t crowd p ↔ InCrowd p := by
  have hadopt : t.adoptOrphans = false := h.bounded.adoptOrphans
  have hshim : t.shim.pid = 1 := congrArg ProcessIdentity.pid h.bounded.shim
  have hroot : Tracker.Root t crowd 2 := by
    obtain ⟨r, hr⟩ := Option.isSome_iff_exists.mp h.root
    obtain ⟨-, hrec⟩ := h.table 2 r hr
    have hpid := crowd.keyed 2 r hrec
    refine .inl ⟨r, hr, r, ?_, ?_⟩
    · rw [hpid]
      exact hrec
    · simp [ProcessIdentity.sameProcess]
  constructor
  · rintro ⟨root, hr, hpath⟩
    induction hpath with
    | refl =>
      rcases hr with ⟨r, hl, -⟩ | ⟨ha, -⟩
      · exact (h.table _ r hl).1
      · rw [hadopt] at ha
        cases ha
    | @tail b c _ hedge ih =>
      obtain ⟨⟨hmem, -⟩, -⟩ := hedge
      simp only [crowd] at hmem
      split at hmem
      · obtain ⟨n, hn, rfl⟩ := List.mem_map.mp hmem
        have := List.mem_range.mp hn
        exact ⟨by omega, by omega⟩
      · cases hmem
  · rintro ⟨hl, hu⟩
    by_cases h2 : p = 2
    · subst h2
      exact ⟨2, hroot, .refl⟩
    · obtain ⟨r, hr, -, -, hppid⟩ := crowd_record ⟨hl, hu⟩
      refine ⟨2, hroot, .single ⟨⟨?_, r, hr, hppid h2⟩, ?_⟩⟩
      · simp only [crowd, if_true]
        exact List.mem_map.mpr ⟨p - 3, List.mem_range.mpr (by omega), by omega⟩
      · omega

lemma no_member (p : ℕ) : ¬Tracker.GroupMember t crowd p := by
  rintro ⟨-, root, -, -, -, -, hmem, -⟩
  cases hmem

lemma scanned_processes (h : Crowded told t) (p : ℕ) (r : ProcessRecord) :
    (t.scan (crowd.host .macos)).processes.lookup p = some r ↔
      InCrowd p ∧ crowd.record p = some r := by
  have hadopt : t.adoptOrphans = false := h.bounded.adoptOrphans
  have hshim : t.shim = crowdId 1 := h.bounded.shim
  have hkeyed : Tracker.Keyed t := fun p r hl => crowd.keyed p r (h.table p r hl).2
  have hcurrent : crowd.Current t.shim := by
    rw [hshim]
    exact ⟨⟨crowdId 1, 0, false⟩, rfl, rfl⟩
  have hroom : Tracker.Roomy t crowd (Finset.range (3 + maxGroups)) := by
    refine ⟨?_, fun p hp => ?_, fun p hp _ => ?_, fun p hp => absurd hp (no_member p)⟩
    · rw [Finset.card_range, h.bounded.processLimit]
      decide
    · obtain ⟨r, hr⟩ := Option.isSome_iff_exists.mp hp
      exact Finset.mem_range.mpr (h.table p r hr).1.2
    · exact Finset.mem_range.mpr ((h.descends p).mp hp).2
  obtain ⟨-, -, hall⟩ := Tracker.discover_closed (crowd.frozen_host .macos) trivial hkeyed hcurrent
    (.inl ⟨_, hroom⟩)
  have hprobed := Tracker.discover_probed (H := crowd.host .macos) t
  have hscan : t.scan (crowd.host .macos) = ((Tracker.discover (crowd.host .macos) t).1.prune
    (crowd.host .macos)).concludeScan (Tracker.discover (crowd.host .macos) t).2 := rfl
  rw [hscan]
  generalize Tracker.discover (crowd.host .macos) t = d at hall hprobed
  obtain ⟨d, i⟩ := d
  dsimp only at hall hprobed ⊢
  have hkeyed' : Tracker.Keyed d := fun p r hl => ((hall p r).mp hl).pid hkeyed
  obtain ⟨hpruned, -⟩ := Tracker.prune_closed (crowd.frozen_host .macos) trivial hkeyed'
  rw [(Tracker.concludeScan_frame i 0 .processLimit (by simp)).2.2.1, hpruned.lookup, hall]
  have hnot : ¬d.Adopted r := by
    rintro ⟨ha, -⟩
    rw [hprobed.adoptOrphans, hadopt] at ha
    cases ha
  constructor
  · rintro ⟨⟨hm, -⟩ | ⟨-, hf⟩, -⟩
    · exact absurd hm (no_member p)
    · have hdisc := hf
      generalize hp : p = q at hf
      cases hf with
      | found hne hr hd => exact ⟨(h.descends q).mp hd, hr⟩
      | shim hr => exact h.table _ _ hr
  · rintro ⟨hin, hr⟩
    refine ⟨.inr ⟨no_member p, .found ?_ hr ((h.descends p).mpr hin)⟩, hnot⟩
    rw [hshim]
    rintro rfl
    exact absurd hin.1 (by decide)

lemma scan (h : Crowded told t) (hp : t.pending = []) :
    Crowded (told ++ (t.scan (crowd.host .macos)).pending) (t.scan (crowd.host .macos)) ∧
      (t.scan (crowd.host .macos)).pending.length ≤ maxGroups ∧
      ∀ p, InCrowd p → crowdId p ∈ (t.scan (crowd.host .macos)).observed := by
  have htable := h.scanned_processes
  have hb : Tracker.Bounded crowdTracker (t.scan (crowd.host .macos)) :=
    h.bounded.run (H := crowd.host .macos) [.scan]
  obtain ⟨news, ha⟩ := Tracker.scan_announces (H := crowd.host .macos) t
  generalize t.scan (crowd.host .macos) = t' at htable hb ha ⊢
  have hpend : t'.pending = news := by
    rw [ha.pending, hp, List.nil_append]
  have hlookup : ∀ p, InCrowd p → ∃ r, t'.processes.lookup p = some r ∧ r.identity = crowdId p := by
    intro p hin
    obtain ⟨r, hr, hid, -⟩ := crowd_record hin
    exact ⟨r, (htable p r).mpr ⟨hin, hr⟩, hid⟩
  have hobs : ∀ id, id ∈ t'.observed → ∃ p, InCrowd p ∧ id = crowdId p := by
    intro id hid
    obtain ⟨⟨p, r, hl, rfl⟩, -⟩ := Tracker.mem_observed.mp hid
    obtain ⟨hin, hr⟩ := (htable p r).mp hl
    obtain ⟨r', hr', hid', -⟩ := crowd_record hin
    obtain rfl := Option.some.inj (hr.symm.trans hr')
    exact ⟨p, hin, hid'⟩
  -- every leader is still there, so no group is let go
  have hkept : ∀ id ∈ t.groups, id ∈ t'.groups := by
    intro id hid
    obtain ⟨p, hin, rfl⟩ := h.groups id hid
    obtain ⟨r, hl, hr⟩ := hlookup p hin
    refine (ha.groups _).mpr (.inl ⟨hid, ?_⟩)
    have hl' : t'.processes.lookup (crowdId p).pid = some r := hl
    simp [Tracker.retainsGroup, hl', hr]
  rw [hpend]
  refine ⟨⟨hb, fun p r hl => (htable p r).mp hl, ?_, ?_, ?_⟩, ?_, ?_⟩
  · obtain ⟨r, hl, -⟩ := hlookup 2 ⟨le_rfl, by decide⟩
    rw [hl]
    rfl
  · intro id hid
    rcases (ha.groups id).mp hid with ⟨hid, -⟩ | hid
    · exact h.groups id hid
    · exact hobs id (ha.seen id hid)
  · intro id hid
    rcases List.mem_append.mp hid with hid | hid
    · exact hkept id (h.told id hid)
    · exact (ha.groups id).mpr (.inr hid)
  · refine ha.room.trans (hb.groups.trans ?_)
    rw [hb.groupLimit]
    exact le_rfl
  · intro p hin
    obtain ⟨r, hl, hid⟩ := hlookup p hin
    exact Tracker.mem_observed.mpr ⟨⟨p, r, hl, hid⟩, rfl⟩

lemma sweep (h : Crowded told t) (hp : t.pending = []) (c : Instant) :
    Crowded (told ++ (t.scan (crowd.host .macos)).pending)
      (Supervisor.sweep crowdConfig (crowd.host .macos) t c).2 := by
  obtain ⟨hscan, -, -⟩ := h.scan hp
  have hb := h.bounded.run (H := crowd.host .macos)
    [.scan, .takeNewGroups, .beginCleanup c none 0, .advance c]
  obtain ⟨hproc, hgroups⟩ : (Tracker.beginCleanup (t.scan (crowd.host .macos)).takeNewGroups.2 c
        none 0).processes = (t.scan (crowd.host .macos)).processes ∧
      (Tracker.beginCleanup (t.scan (crowd.host .macos)).takeNewGroups.2 c none 0).groups =
        (t.scan (crowd.host .macos)).groups := by
    rw [Tracker.beginCleanup]
    split <;> exact ⟨rfl, rfl⟩
  have hsteady := Tracker.Steady.advance (H := crowd.host .macos)
    (Tracker.beginCleanup (t.scan (crowd.host .macos)).takeNewGroups.2 c none 0) c
  refine ⟨hb, ?_, ?_, fun id hid => ?_, fun id hid => ?_⟩
  · intro p r hl
    exact hscan.table p r (by rw [← hproc, ← Tracker.advance_processes _ c]; exact hl)
  · have hroot := hscan.root
    rw [← hproc, ← Tracker.advance_processes (H := crowd.host .macos) _ c] at hroot
    exact hroot
  · have hid := (hsteady.groups id).mp hid
    rw [hgroups] at hid
    exact hscan.groups id hid
  · refine (hsteady.groups id).mpr ?_
    rw [hgroups]
    exact hscan.told id hid

lemma untold (h : Crowded told t) : ∃ p, InCrowd p ∧ crowdId p ∉ told := by
  by_contra hall
  push Not at hall
  have hcard := Table.size_ge_card (t := t.groups)
    (F := (Finset.range (maxGroups + 1)).image fun n => crowdId (n + 2)) (by
      intro id hid
      obtain ⟨n, hn, rfl⟩ := Finset.mem_image.mp hid
      have := Finset.mem_range.mp hn
      exact h.told _ (hall _ ⟨by omega, by omega⟩))
  have hinj : Function.Injective fun n => crowdId (n + 2) := by
    intro a b hab
    exact Nat.add_right_cancel (congrArg ProcessIdentity.pid hab)
  rw [Finset.card_image_of_injective _ hinj, Finset.card_range] at hcard
  have hlimit := h.bounded.groups
  rw [h.bounded.groupLimit] at hlimit
  have hmax : crowdTracker.groupLimit = maxGroups := rfl
  omega

end Crowded

lemma crowd_uncertain (h : Crowded [crowdId 2] crowdTracker.takeNewGroups.2) :
    (crowdTracker.takeNewGroups.2.scan (crowd.host .macos)).uncertain = true := by
  obtain ⟨hs, -, hobs⟩ := h.scan rfl
  obtain ⟨news, ha⟩ := Tracker.scan_announces (H := crowd.host .macos) crowdTracker.takeNewGroups.2
  have hbegin : (Tracker.Start.withSource (crowdId 2)).tracker (crowd.host .macos) () (crowdId 1) =
      crowdTracker := rfl
  have hc := Tracker.run_certain (H := crowd.host .macos) (.withSource (crowdId 2)) () (crowdId 1)
    [.takeNewGroups, .scan]
  rw [hbegin, Tracker.run_cons, Tracker.run_cons, Tracker.run_nil, Tracker.apply, Tracker.apply] at hc
  generalize crowdTracker.takeNewGroups.2.scan (crowd.host .macos) = t at hs hobs ha hc ⊢
  by_contra hcertain
  have hlog := (hc.undisturbed (by simpa using hcertain)).events
  have hnone : failures .groupLimit t.log = 0 := by
    rw [failures, List.countP_eq_zero]
    intro e he hf
    cases e with
    | failed why => exact hlog _ he
    | _ => cases hf
  obtain ⟨p, hp, hn⟩ := Crowded.untold
    (⟨hs.bounded, hs.table, hs.root, hs.groups, ha.all (hnone.trans rfl)⟩ : Crowded t.observed _)
  exact hn (hobs p hp)

lemma crowd_reports {s : State Unit} {t : Tracked Unit} (h : Poised .top 0 [] s t)
    (hc : Crowded [crowdId 2] t.tracker) (hcl : t.tracker.cleanup = none) (hn : t.nextScan ≤ 0)
    (hu : (t.tracker.scan (crowd.host .macos)).uncertain = true) :
    ∃ labels s' told report u, exec (step crowdConfig (crowd.host .macos)) s
        (.tick ⟨false, 0, 0⟩ :: labels) = some s' ∧
      s'.wire = .exit report :: (told.map Frame.tracked).reverse ∧
      report.trackedGroupsTruncated = some false ∧ Crowded (crowdId 2 :: told) u := by
  obtain ⟨-, hroom, -⟩ := hc.scan h.pending
  obtain ⟨s1, t1, he1, ht1, hp1, hnext1, ho1⟩ := h.tick hn hroom (.inr hu)
  obtain ⟨hdone, cleanup, hcl1, hd1⟩ := sweep_begins (H := crowd.host .macos)
    (c := 0) hcl
  have hc1 := hc.sweep h.pending 0
  rw [hdone, Bool.false_and, if_neg Bool.false_ne_true, List.nil_append] at hp1
  rw [← ht1] at hc1 hcl1
  have hnext1 := hnext1 hp1.point
  generalize (t.tracker.scan (crowd.host .macos)).pending = news1 at he1 hp1 hc1
  generalize hs2 : { s1 with clock := s1.clock + confirmGrace, point := Point.top } = s2
  have h2 : Poised .top confirmGrace news1 s2 t1 := by
    subst hs2
    refine ⟨hp1.mode, rfl, ?_, hp1.queue, hp1.beamGone, hp1.writer, hp1.control, hp1.complete,
      hp1.wire, hp1.pending⟩
    exact (congrArg (· + confirmGrace) hp1.clock).trans (Nat.zero_add _)
  have helapse : step crowdConfig (crowd.host .macos) s1 (.elapse confirmGrace) =
      some { s1 with clock := s1.clock + confirmGrace } := rfl
  have htimeout : step crowdConfig (crowd.host .macos) { s1 with clock := s1.clock + confirmGrace }
      .timeout = some s2 := by
    have hdue : t1.nextScan ≤ s1.clock + confirmGrace := by
      rw [hnext1, hp1.clock]
      decide
    simp only [step, hp1.point, timeout, hp1.mode]
    rw [if_pos ⟨hp1.queue, hdue⟩, ← hs2, hp1.mode]
  -- the deadline ends the loop
  obtain ⟨-, hroom2, -⟩ := hc1.scan h2.pending
  have hdue2 : t1.nextScan ≤ confirmGrace := by
    rw [hnext1]
    decide
  obtain ⟨s3, t3, he3, ht3, hp3, -, -⟩ := h2.tick hdue2 hroom2
    (.inl (congrArg Option.isSome hcl1))
  obtain ⟨hdone3, hexp3⟩ := sweep_late (H := crowd.host .macos)
    (c := confirmGrace) hcl1 (hd1.trans (by decide)).le
  have hc3 := hc1.sweep h2.pending confirmGrace
  rw [ht3, hdone3, hexp3, Bool.or_true, Bool.and_true, if_pos rfl] at hp3
  rw [← ht3] at hc3
  generalize (t1.tracker.scan (crowd.host .macos)).pending = news2 at he3 hp3 hc3
  obtain ⟨hc4, hroom4, -⟩ := hc3.scan hp3.pending
  obtain ⟨s4, report, he4, hw4, hr4⟩ := hp3.finish (rfl : crowdConfig.strictOutput = false) hroom4
  generalize (t3.tracker.scan (crowd.host .macos)).pending = news3 at he4 hw4 hc4
  have hrun := exec_trans he1
    ((exec_cons helapse).trans ((exec_cons htimeout).trans (exec_trans he3 he4)))
  rw [List.cons_append] at hrun
  exact ⟨_, s4, _, report, _, hrun, hw4, hr4, hc4⟩

def crowdStart : State Unit :=
  beginTracked (crowd.host .macos) () (crowdId 1) (crowdId 2) 0 (.new .stdout false) none

/-- An EXIT can call the history complete although a leader was never announced. -/
theorem history_overflow :
    ∃ labels s before report, Run (fun s l s' => step crowdConfig (crowd.host .macos) s l = some s')
      crowdStart labels s ∧ s.wire = .exit report :: before ∧
      report.trackedGroupsTruncated = some false ∧
      ∃ id ∈ runLeaders crowdConfig (crowd.host .macos) crowdStart labels,
        id ∉ crowdId 2 :: announced before := by
  have hstart : Crowded [crowdId 2] crowdTracker.takeNewGroups.2 := by
    refine ⟨⟨rfl, rfl, rfl, rfl, rfl, by decide⟩, fun p r hl => ?_, rfl, fun id hid => ?_, ?_⟩
    · have hl : (AList.insert 2 ⟨crowdId 2, 1, false⟩ (∅ : Table ℕ ProcessRecord)).lookup p =
        some r := hl
      by_cases hp : p = 2
      · subst hp
        rw [AList.lookup_insert] at hl
        obtain rfl := Option.some.inj hl
        exact ⟨⟨le_rfl, by decide⟩, rfl⟩
      · rw [AList.lookup_insert_ne hp] at hl
        cases hl
    · rcases (AList.mem_insert _).mp hid with rfl | hid
      · exact ⟨2, ⟨le_rfl, by decide⟩, rfl⟩
      · exact absurd hid (AList.notMem_empty _)
    · simp only [List.mem_singleton, forall_eq]
      exact (AList.mem_insert _).mpr (.inl rfl)
  have huncertain := crowd_uncertain hstart
  obtain ⟨-, -, hobs⟩ := hstart.scan rfl
  obtain ⟨labels, s, told, report, u, hrun, hw, hr, hu⟩ := crowd_reports (s := crowdStart)
    ⟨rfl, rfl, rfl, rfl, rfl, rfl, rfl, rfl, rfl, rfl⟩ hstart rfl le_rfl huncertain
  obtain ⟨p, hp, hn⟩ := hu.untold
  refine ⟨_, s, _, report, exec_run hrun, hw, hr, crowdId p, ?_, ?_⟩
  · rw [runLeaders, observe, List.mem_append]
    have hsc : scanning crowdConfig crowdStart (.tick ⟨false, 0, 0⟩) =
        some crowdTracker.takeNewGroups.2 := rfl
    rw [leadersSeen_some hsc]
    exact .inl (hobs p hp)
  · rw [announced, List.reverse_reverse, List.filterMap_map]
    have hsome : Frame.tracked? ∘ Frame.tracked = some := rfl
    rw [hsome, List.filterMap_some]
    exact hn

end Crowd

end Supervisor

end Forcola.Native
