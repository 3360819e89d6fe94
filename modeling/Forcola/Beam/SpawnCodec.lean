import Mathlib
import Forcola.Beam.ExitCodec
import Forcola.Native.Equipped

/-! SPAWN on the wire: what the client writes, and what the shim makes of it. -/

namespace Forcola.Beam

open Library JsonText
open Native (Bytes)
open Native.ProcStat (encode)
open Native.Privdrop (UserSpec GroupSpec)
open Native.Protocol
open Native.RecordedGroups (asStr asU64)

namespace SpawnCodec

open ExitCodec (Field decodeJson_fields)

structure Options where
  cd : Option String
  env : Option (List (String × Option String))
  mergeStderr : Bool
  timeoutMs : Option ℕ
  killGraceMs : Option ℕ
  envMode : Option EnvMode
  interruptSignal : Option InterruptSignal
  interruptGraceMs : Option ℕ
  user : Option UserSpec
  group : Option GroupSpec
  windowBytes : Option ℕ
  stderrWindowBytes : Option ℕ
  strictOutput : Option Bool
  cgroup : CgroupMode
  pty : Bool
  ptyRows : Option ℕ
  ptyCols : Option ℕ

/-- A value as `:json.encode/1` writes it, with what the text stands for. -/
structure Value where
  text : List Char
  json : Json

def Value.int (n : ℕ) : Value := ⟨intText n, .int n⟩

def Value.bool (b : Bool) : Value := ⟨boolText b, .bool b⟩

def Value.string (s : String) : Value := ⟨quoted .upper s.toList, .string s⟩

def Value.list (items : List String) : Value :=
  ⟨arrayText (items.map fun s => quoted .upper s.toList), .array (items.map .string)⟩

def Value.map (entries : List (String × Option String)) : Value :=
  ⟨objectText .upper (entries.map fun e => (e.1.toList, optionText .upper e.2)),
    .object (entries.map fun e => (e.1, GroupsReply.reasonJson e.2))⟩

/-- `Map.new/2`: of two entries with one name the later stays. -/
def encodeEnv : List (String × Option String) → List (String × Option String)
  | [] => []
  | e :: rest => if rest.any (·.1 == e.1) then encodeEnv rest else e :: encodeEnv rest

def encodeEnvMode : EnvMode → Value
  | .inherit => .string "inherit"
  | .replace => .string "replace"

def encodeInterruptSignal : InterruptSignal → Value
  | .int => .string "int"

def encodeUser : UserSpec → Value
  | .id uid => .int uid
  | .name name => .string name

def encodeGroup : GroupSpec → Value
  | .id gid => .int gid
  | .name name => .string name

def putCgroup : CgroupMode → Option Value
  | .bestEffort false => none
  | .bestEffort true => some (.bool true)
  | .required => some (.string "required")

/-- `put_pty/2` leaves the size out where there is no pty. -/
def Options.rows (o : Options) : Option ℕ := if o.pty then o.ptyRows else none

def Options.cols (o : Options) : Option ℕ := if o.pty then o.ptyCols else none

def puts (argv : List String) (env : Option (List (String × Option String))) (o : Options) :
    List (String × Option Value) :=
  [("argv", some (.list argv)), ("merge_stderr", some (.bool o.mergeStderr)),
    ("cd", o.cd.map .string), ("env", env.map .map), ("timeout_ms", o.timeoutMs.map .int),
    ("kill_grace_ms", o.killGraceMs.map .int), ("env_mode", o.envMode.map encodeEnvMode),
    ("interrupt_signal", o.interruptSignal.map encodeInterruptSignal),
    ("interrupt_grace_ms", o.interruptGraceMs.map .int), ("user", o.user.map encodeUser),
    ("group", o.group.map encodeGroup), ("window_bytes", o.windowBytes.map .int),
    ("stderr_window_bytes", o.stderrWindowBytes.map .int),
    ("strict_output", o.strictOutput.map .bool), ("cgroup", putCgroup o.cgroup),
    ("pty", if o.pty then some (.bool true) else none), ("pty_rows", o.rows.map .int),
    ("pty_cols", o.cols.map .int)]

def present (entries : List (String × Option Value)) : List Field :=
  entries.filterMap fun e => e.2.map fun value => ⟨e.1, value.text, value.json⟩

/-- The payloads of `encode_spawn/2`: its maps have no order of their own. -/
inductive Encodes (argv : List String) (o : Options) : Bytes → Prop
  | mk {env : Option (List (String × Option String))} {written : List Field} :
      Option.Rel List.Perm env (o.env.map encodeEnv) → written.Perm (present (puts argv env o)) →
      Encodes argv o (encode (objectText .upper (written.map fun f => (f.key.toList, f.text))))

inductive Value.Plain : Value → Prop
  | int (n : ℕ) : Plain (.int n)
  | bool (b : Bool) : Plain (.bool b)
  | string (s : String) : Plain (.string s)
  | list (items : List String) : Plain (.list items)
  | map (entries : List (String × Option String)) : Plain (.map entries)

def entry (f : Field) : String × Json := (f.key, f.value)

/-- What is taken of `serde_json`: it reads the text of an object that has only fields of the
struct, each once and with a plain value, as the struct's fields. -/
def ReadsSpawn (serde : Serde) : Prop :=
  ∀ written : List Field, (∀ f ∈ written, f.key ∈ spawnFields ∧ Value.Plain ⟨f.text, f.value⟩) →
    (written.map Field.key).Nodup → ∀ r,
      serde.spawn (encode (objectText .upper (written.map fun f => (f.key.toList, f.text)))) =
        .ok r ↔ SpawnRequest.fromFields (written.map entry) = some r

def userFits : UserSpec → Prop
  | .id uid => uid < 2 ^ 32
  | .name _ => True

def groupFits : GroupSpec → Prop
  | .id gid => gid < 2 ^ 32
  | .name _ => True

def Options.Fits (o : Options) : Prop :=
  (∀ n ∈ o.interruptGraceMs, n < 2 ^ 64) ∧ (∀ n ∈ o.timeoutMs, n < 2 ^ 64) ∧
    (∀ n ∈ o.killGraceMs, n < 2 ^ 64) ∧ (∀ n ∈ o.rows, n < 2 ^ 16) ∧ (∀ n ∈ o.cols, n < 2 ^ 16) ∧
    (∀ user ∈ o.user, userFits user) ∧ (∀ group ∈ o.group, groupFits group) ∧
    (∀ n ∈ o.windowBytes, n < 2 ^ 64) ∧ ∀ n ∈ o.stderrWindowBytes, n < 2 ^ 64

def request (argv : List String) (env : Option (List (String × Option String))) (o : Options) :
    SpawnRequest where
  argv := argv
  cd := o.cd
  env := env.getD []
  mergeStderr := o.mergeStderr
  envMode := o.envMode.getD .inherit
  interruptSignal := o.interruptSignal
  interruptGraceMs := o.interruptGraceMs
  timeoutMs := o.timeoutMs
  killGraceMs := o.killGraceMs.getD defaultKillGraceMs
  pty := o.pty
  ptyRows := o.rows
  ptyCols := o.cols
  user := o.user
  group := o.group
  cgroup := o.cgroup
  windowBytes := o.windowBytes
  stderrWindowBytes := o.stderrWindowBytes
  strictOutput := o.strictOutput.getD false

variable {argv : List String} {env : Option (List (String × Option String))} {o : Options}

def Value.Sound (v : Value) : Prop :=
  ReadsItem Json.builder v.text v.json

lemma Value.list_sound (items : List String) : (Value.list items).Sound := by
  apply Reads.item
  apply Reads.array
  rw [List.forall₂_map_left_iff, List.forall₂_map_right_iff]
  exact List.forall₂_same.mpr fun s _ => GroupsReply.reads_string _ s

lemma Value.map_sound (entries : List (String × Option String)) : (Value.map entries).Sound := by
  have hfields : ReadFields Json.builder
      (entries.map fun e => (e.1.toList, optionText .upper e.2))
      (entries.map fun e => (e.1.toList, GroupsReply.reasonJson e.2)) := by
    rw [ReadFields, List.forall₂_map_left_iff, List.forall₂_map_right_iff]
    exact List.forall₂_same.mpr fun e _ => ⟨rfl, GroupsReply.reads_option _ e.2⟩
  have hvalue : Json.builder.object
      (entries.map fun e => (e.1.toList, GroupsReply.reasonJson e.2)) =
        .object (entries.map fun e => (e.1, GroupsReply.reasonJson e.2)) := by
    simp [Json.builder, Function.comp_def]
  have hread := (Reads.object (w := .upper) hfields).item
  rwa [hvalue] at hread

lemma Value.Plain.sound {v : Value} (h : v.Plain) : v.Sound := by
  cases h with
  | int n => exact ReadsItem.int n
  | bool b => exact (Reads.bool b).item
  | string s => exact (GroupsReply.reads_string _ s).item
  | list items => exact Value.list_sound items
  | map entries => exact Value.map_sound entries

lemma puts_plain (argv : List String) (env : Option (List (String × Option String)))
    (o : Options) : ∀ e ∈ puts argv env o, ∀ v ∈ e.2, v.Plain := by
  have hmap {α : Type} (a : Option α) (make : α → Value) (hmake : ∀ x, (make x).Plain) :
      ∀ v ∈ a.map make, v.Plain := by
    intro v hv
    obtain ⟨x, -, rfl⟩ := Option.map_eq_some_iff.mp hv
    exact hmake x
  have hlone {v : Value} (hv : v.Plain) : ∀ w ∈ some v, w.Plain := by
    intro w hw
    obtain rfl := Option.some.inj hw
    exact hv
  have hnone : ∀ w ∈ (none : Option Value), w.Plain := fun w hw => by cases hw
  simp only [puts, List.forall_mem_cons]
  have hint (a : Option ℕ) : ∀ v ∈ a.map Value.int, v.Plain := hmap a _ .int
  refine ⟨hlone (.list _), hlone (.bool _), hmap _ _ .string, hmap _ _ .map, hint _, hint _,
    hmap _ _ ?_, hmap _ _ ?_, hint _, hmap _ _ ?_, hmap _ _ ?_, hint _, hint _, hmap _ _ .bool, ?_,
    ?_, hint _, hint _, by simp⟩
  · intro mode
    cases mode <;> exact .string _
  · intro signal
    exact .string _
  · intro user
    cases user with
    | id uid => exact .int uid
    | name name => exact .string name
  · intro group
    cases group with
    | id gid => exact .int gid
    | name name => exact .string name
  · cases o.cgroup with
    | bestEffort requested =>
      cases requested with
      | false => exact hnone
      | true => exact hlone (.bool true)
    | required => exact hlone (.string _)
  · split
    · exact hlone (.bool true)
    · exact hnone

lemma puts_known (argv : List String) (env : Option (List (String × Option String)))
    (o : Options) : ∀ e ∈ puts argv env o, e.1 ∈ spawnFields := by
  simp [puts, spawnFields]

lemma present_plain {entries : List (String × Option Value)}
    (hknown : ∀ e ∈ entries, e.1 ∈ spawnFields) (h : ∀ e ∈ entries, ∀ v ∈ e.2, v.Plain) :
    ∀ f ∈ present entries, f.key ∈ spawnFields ∧ Value.Plain ⟨f.text, f.value⟩ := by
  intro f hf
  obtain ⟨e, he, hput⟩ := List.mem_filterMap.mp hf
  obtain ⟨v, hv, rfl⟩ := Option.map_eq_some_iff.mp hput
  exact ⟨hknown e he, h e he v hv⟩

lemma present_keys (entries : List (String × Option Value)) :
    ((present entries).map Field.key).Sublist (entries.map Prod.fst) := by
  induction entries with
  | nil => exact .slnil
  | cons e entries ih =>
    obtain ⟨key, value⟩ := e
    cases value with
    | none => exact ih.cons key
    | some value => exact ih.cons_cons key

lemma puts_keys (argv : List String) (env : Option (List (String × Option String)))
    (o : Options) : ((present (puts argv env o)).map Field.key).Nodup := by
  refine (present_keys _).nodup ?_
  simp [puts]

lemma lookup_perm {l l' : List (String × Json)} (h : l.Perm l') (hn : (l.map Prod.fst).Nodup)
    (key : String) : l.lookup key = l'.lookup key := by
  induction h with
  | nil => rfl
  | cons e _ ih =>
    obtain ⟨name, value⟩ := e
    rw [List.lookup_cons, List.lookup_cons, ih (List.nodup_cons.mp hn).2]
  | swap e e' l =>
    obtain ⟨name, value⟩ := e
    obtain ⟨name', value'⟩ := e'
    have hne : name' ≠ name := by
      rintro rfl
      exact (List.nodup_cons.mp hn).1 (by simp)
    rw [List.lookup_cons, List.lookup_cons, List.lookup_cons, List.lookup_cons]
    cases he : key == name with
    | false => rfl
    | true =>
      obtain rfl := beq_iff_eq.mp he
      rw [beq_eq_false_iff_ne.mpr hne.symm]
  | trans hfirst _ ih ih' =>
    exact (ih hn).trans (ih' ((hfirst.map Prod.fst).nodup_iff.mp hn))

lemma lookup_present (key name : String) (value : Option Value)
    (entries : List (String × Option Value)) :
    ((present ((name, value) :: entries)).map entry).lookup key =
      if key = name then (value.map Value.json).or (((present entries).map entry).lookup key)
      else ((present entries).map entry).lookup key := by
  cases value with
  | none => simp [present]
  | some value =>
    have hcons : (present ((name, some value) :: entries)).map entry =
        (name, value.json) :: (present entries).map entry := rfl
    rw [hcons, List.lookup_cons]
    by_cases h : key = name
    · rw [if_pos h, beq_iff_eq.mpr h]
      rfl
    · rw [if_neg h, beq_eq_false_iff_ne.mpr h]

lemma lookup_absent {key : String} {entries : List (String × Option Value)}
    (h : key ∉ entries.map Prod.fst) : ((present entries).map entry).lookup key = none := by
  rw [List.lookup_eq_none_iff]
  intro e he
  obtain ⟨f, hf, rfl⟩ := List.mem_map.mp he
  have hkey := (present_keys entries).subset (List.mem_map_of_mem hf)
  have hne : key ≠ f.key := fun heq => h (heq ▸ hkey)
  simpa [entry] using hne

lemma lookup_mem {key : String} {value : Option Value} {entries : List (String × Option Value)}
    (hn : (entries.map Prod.fst).Nodup) (h : (key, value) ∈ entries) :
    ((present entries).map entry).lookup key = value.map Value.json := by
  induction entries with
  | nil => cases h
  | cons e entries ih =>
    obtain ⟨name, other⟩ := e
    obtain ⟨hnew, hrest⟩ := List.nodup_cons.mp hn
    rw [lookup_present]
    rcases List.mem_cons.mp h with h | h
    · obtain ⟨rfl, rfl⟩ := Prod.mk.inj h
      rw [if_pos rfl, lookup_absent hnew, Option.or_none]
    · have hin : key ∈ entries.map Prod.fst := List.mem_map.mpr ⟨(key, value), h, rfl⟩
      have hne : key ≠ name := fun heq => hnew (heq ▸ hin)
      rw [if_neg hne]
      exact ih hrest h

lemma lookup_puts {key : String} {value : Option Value} (h : (key, value) ∈ puts argv env o) :
    ((present (puts argv env o)).map entry).lookup key = value.map Value.json :=
  lookup_mem (by simp [puts]) h

variable {α β : Type} {fields : List (String × Json)} {key : String} {a : Option α}
  {make : α → Value} {P : α → Prop} {result : α → β} {default c : β} {read : Json → Option β}

lemma reads_field (hlookup : fields.lookup key = (a.map make).map Value.json)
    (hread : ∀ x y, read (make x).json = some y ↔ P x ∧ y = result x)
    (hc : (a.map result).getD default = c) (b : β) :
    orDefault fields key default read = some b ↔ (∀ x ∈ a, P x) ∧ b = c := by
  rw [orDefault, hlookup]
  subst hc
  cases a with
  | none => simp [eq_comm]
  | some x => simp [hread]

lemma reads_plain (hlookup : fields.lookup key = (a.map make).map Value.json)
    (hread : ∀ x, read (make x).json = some (result x))
    (hc : (a.map result).getD default = c) :
    orDefault fields key default read = some c := by
  rw [orDefault, hlookup]
  subst hc
  cases a with
  | none => rfl
  | some x => exact hread x

lemma getD_some (a : Option α) : (a.map some).getD none = a := by
  cases a <;> rfl

lemma asU64_int (n y : ℕ) : asU64 (Value.int n).json = some y ↔ n < 2 ^ 64 ∧ y = n := by
  change (if n < 2 ^ 64 then some n else none) = some y ↔ _
  rw [Option.ite_none_right_eq_some, Option.some.injEq, eq_comm (a := n)]

lemma asUnsigned_int (bits n y : ℕ) :
    asUnsigned bits (Value.int n).json = some y ↔ n < 2 ^ bits ∧ y = n := by
  change (if n < 2 ^ bits then some n else none) = some y ↔ _
  rw [Option.ite_none_right_eq_some, Option.some.injEq, eq_comm (a := n)]

lemma asOption_spec {spec : Json → Option α} {x : α} {value : Value} {Q : Prop}
    (hnull : asOption spec value.json = (spec value.json).map some)
    (h : ∀ y, spec value.json = some y ↔ Q ∧ y = x) (y : Option α) :
    asOption spec value.json = some y ↔ Q ∧ y = some x := by
  rw [hnull, Option.map_eq_some_iff]
  constructor
  · rintro ⟨m, hm, rfl⟩
    obtain ⟨hfits, rfl⟩ := (h m).mp hm
    exact ⟨hfits, rfl⟩
  · rintro ⟨hfits, rfl⟩
    exact ⟨x, (h x).mpr ⟨hfits, rfl⟩, rfl⟩

lemma asList_strings (items : List String) :
    asList asStr (Value.list items).json = some items := by
  change (items.map Json.string).mapM asStr = some items
  induction items with
  | nil => rfl
  | cons s items ih => simp [ih, asStr]

lemma asMap_entries (entries : List (String × Option String)) :
    asMap (asOption asStr) (Value.map entries).json = some entries := by
  change (entries.map fun e => (e.1, GroupsReply.reasonJson e.2)).mapM
    (fun f => ((asOption asStr) f.2).map (f.1, ·)) = some entries
  induction entries with
  | nil => rfl
  | cons e entries ih =>
    obtain ⟨name, value⟩ := e
    rw [List.map_cons, List.mapM_cons, ih]
    cases value <;> rfl

lemma asEnvMode_encode (mode : EnvMode) :
    asEnvMode (encodeEnvMode mode).json = some mode := by
  cases mode <;> rfl

lemma asUnsigned_none {bits n : ℕ} (h : asUnsigned bits (Value.int n).json = none) :
    ¬n < 2 ^ bits := by
  intro hlt
  have hread := (asUnsigned_int bits n n).mpr ⟨hlt, rfl⟩
  rw [h] at hread
  cases hread

lemma asIdOrName_int {id : ℕ → α} {name : String → α} (n : ℕ) (y : α) :
    asIdOrName id name (Value.int n).json = some y ↔ n < 2 ^ 32 ∧ y = id n := by
  rw [asIdOrName]
  split
  · next m hm =>
    obtain ⟨hfits, rfl⟩ := (asUnsigned_int 32 n m).mp hm
    exact ⟨fun hy => ⟨hfits, (Option.some.inj hy).symm⟩, fun hy => hy.2 ▸ rfl⟩
  · next hn =>
    have hnone : (asStr (Value.int n).json).map name = none := rfl
    rw [hnone]
    exact ⟨fun hy => (Option.some_ne_none y hy.symm).elim,
      fun hy => absurd hy.1 (asUnsigned_none hn)⟩

lemma asIdOrName_string {id : ℕ → α} {name : String → α} (s : String) (y : α) :
    asIdOrName id name (Value.string s).json = some y ↔ True ∧ y = name s := by
  change some (name s) = some y ↔ True ∧ _
  simp [eq_comm]

lemma asUserSpec_encode (user y : UserSpec) :
    asUserSpec (encodeUser user).json = some y ↔ userFits user ∧ y = user := by
  cases user with
  | id uid => exact asIdOrName_int uid y
  | name name => exact asIdOrName_string name y

lemma asGroupSpec_encode (group y : GroupSpec) :
    asGroupSpec (encodeGroup group).json = some y ↔ groupFits group ∧ y = group := by
  cases group with
  | id gid => exact asIdOrName_int gid y
  | name name => exact asIdOrName_string name y

lemma bind_reads {γ : Type} {x : Option α} {a : α} {Q : Prop} {f : α → Option γ} {r : γ}
    (h : ∀ b, x = some b ↔ Q ∧ b = a) : (x.bind f = some r) ↔ Q ∧ f a = some r := by
  rw [Option.bind_eq_some_iff]
  constructor
  · rintro ⟨b, hb, hf⟩
    obtain ⟨hq, rfl⟩ := (h b).mp hb
    exact ⟨hq, hf⟩
  · rintro ⟨hq, hf⟩
    exact ⟨a, (h a).mpr ⟨hq, rfl⟩, hf⟩

lemma fromFields_congr {fs fs' : List (String × Json)}
    (h : ∀ key, fs.lookup key = fs'.lookup key) :
    SpawnRequest.fromFields fs = SpawnRequest.fromFields fs' := by
  simp only [SpawnRequest.fromFields, orDefault, h]

lemma fromJson_object {fs : List (String × Json)} (hn : (fs.map Prod.fst).Nodup) :
    SpawnRequest.fromJson (.object fs) = SpawnRequest.fromFields fs := by
  have hall : (spawnFields.all fun key => (fs.map (·.1)).count key ≤ 1) = true := by
    rw [List.all_eq_true]
    intro key _
    simpa using List.nodup_iff_count_le_one.mp hn key
  rw [SpawnRequest.fromJson, structFields, if_pos hall]
  rfl

lemma fromFields_puts (argv : List String) (env : Option (List (String × Option String)))
    (o : Options) (r : SpawnRequest) :
    SpawnRequest.fromFields ((present (puts argv env o)).map entry) = some r ↔
      o.Fits ∧ r = request argv env o := by
  set fs := (present (puts argv env o)).map entry with hfs
  have hput {key : String} {value : Option Value} (h : (key, value) ∈ puts argv env o) :
      fs.lookup key = value.map Value.json := lookup_puts h
  have hargv : (fs.lookup "argv").bind (asList asStr) = some argv := by
    rw [hput (show ("argv", some (Value.list argv)) ∈ puts argv env o by simp [puts])]
    exact asList_strings argv
  have hcd : orDefault fs "cd" none (asOption asStr) = some o.cd :=
    reads_plain (hput (show ("cd", o.cd.map Value.string) ∈ puts argv env o by simp [puts]))
      (fun _ => rfl) (getD_some _)
  have henv : orDefault fs "env" [] (asMap (asOption asStr)) = some (env.getD []) :=
    reads_plain (hput (show ("env", env.map Value.map) ∈ puts argv env o by simp [puts]))
      asMap_entries (by cases env <;> rfl)
  have hmerge : orDefault fs "merge_stderr" false asBool = some o.mergeStderr :=
    reads_plain (hput (show ("merge_stderr", (some o.mergeStderr).map Value.bool) ∈
      puts argv env o by simp [puts])) (fun _ => rfl) rfl
  have hmode : orDefault fs "env_mode" .inherit asEnvMode = some (o.envMode.getD .inherit) :=
    reads_plain (hput (show ("env_mode", o.envMode.map encodeEnvMode) ∈ puts argv env o by
      simp [puts])) asEnvMode_encode (by cases o.envMode <;> rfl)
  have hsignal : orDefault fs "interrupt_signal" none (asOption asInterruptSignal) =
      some o.interruptSignal :=
    reads_plain (hput (show ("interrupt_signal", o.interruptSignal.map encodeInterruptSignal) ∈
      puts argv env o by simp [puts])) (fun _ => rfl) (getD_some _)
  have hgrace : ∀ b, orDefault fs "interrupt_grace_ms" none (asOption asU64) = some b ↔
      (∀ n ∈ o.interruptGraceMs, n < 2 ^ 64) ∧ b = o.interruptGraceMs :=
    reads_field (hput (show ("interrupt_grace_ms", o.interruptGraceMs.map Value.int) ∈
      puts argv env o by simp [puts])) (fun n => asOption_spec rfl (asU64_int n)) (getD_some _)
  have htimeout : ∀ b, orDefault fs "timeout_ms" none (asOption asU64) = some b ↔
      (∀ n ∈ o.timeoutMs, n < 2 ^ 64) ∧ b = o.timeoutMs :=
    reads_field (hput (show ("timeout_ms", o.timeoutMs.map Value.int) ∈ puts argv env o by
      simp [puts])) (fun n => asOption_spec rfl (asU64_int n)) (getD_some _)
  have hkill : ∀ b, orDefault fs "kill_grace_ms" defaultKillGraceMs asU64 = some b ↔
      (∀ n ∈ o.killGraceMs, n < 2 ^ 64) ∧ b = o.killGraceMs.getD defaultKillGraceMs :=
    reads_field (hput (show ("kill_grace_ms", o.killGraceMs.map Value.int) ∈ puts argv env o by
      simp [puts])) asU64_int (by cases o.killGraceMs <;> rfl)
  have hpty : orDefault fs "pty" false asBool = some o.pty := by
    rw [orDefault, hput (show ("pty", if o.pty then some (Value.bool true) else none) ∈
      puts argv env o by simp [puts])]
    cases o.pty <;> rfl
  have hrows : ∀ b, orDefault fs "pty_rows" none (asOption (asUnsigned 16)) = some b ↔
      (∀ n ∈ o.rows, n < 2 ^ 16) ∧ b = o.rows :=
    reads_field (hput (show ("pty_rows", o.rows.map Value.int) ∈ puts argv env o by
      simp [puts])) (fun n => asOption_spec rfl (asUnsigned_int 16 n)) (getD_some _)
  have hcols : ∀ b, orDefault fs "pty_cols" none (asOption (asUnsigned 16)) = some b ↔
      (∀ n ∈ o.cols, n < 2 ^ 16) ∧ b = o.cols :=
    reads_field (hput (show ("pty_cols", o.cols.map Value.int) ∈ puts argv env o by
      simp [puts])) (fun n => asOption_spec rfl (asUnsigned_int 16 n)) (getD_some _)
  have huser : ∀ b, orDefault fs "user" none (asOption asUserSpec) = some b ↔
      (∀ user ∈ o.user, userFits user) ∧ b = o.user :=
    reads_field (hput (show ("user", o.user.map encodeUser) ∈ puts argv env o by simp [puts]))
      (fun user => asOption_spec (by cases user <;> rfl) (asUserSpec_encode user)) (getD_some _)
  have hgroup : ∀ b, orDefault fs "group" none (asOption asGroupSpec) = some b ↔
      (∀ group ∈ o.group, groupFits group) ∧ b = o.group :=
    reads_field (hput (show ("group", o.group.map encodeGroup) ∈ puts argv env o by
      simp [puts])) (fun group => asOption_spec (by cases group <;> rfl)
      (asGroupSpec_encode group)) (getD_some _)
  have hcgroup : orDefault fs "cgroup" (.bestEffort false) asCgroupMode = some o.cgroup := by
    rw [orDefault, hput (show ("cgroup", putCgroup o.cgroup) ∈ puts argv env o by simp [puts])]
    cases o.cgroup with
    | bestEffort requested => cases requested <;> rfl
    | required => rfl
  have hwindow : ∀ b, orDefault fs "window_bytes" none (asOption asU64) = some b ↔
      (∀ n ∈ o.windowBytes, n < 2 ^ 64) ∧ b = o.windowBytes :=
    reads_field (hput (show ("window_bytes", o.windowBytes.map Value.int) ∈ puts argv env o by
      simp [puts])) (fun n => asOption_spec rfl (asU64_int n)) (getD_some _)
  have hstderr : ∀ b, orDefault fs "stderr_window_bytes" none (asOption asU64) = some b ↔
      (∀ n ∈ o.stderrWindowBytes, n < 2 ^ 64) ∧ b = o.stderrWindowBytes :=
    reads_field (hput (show ("stderr_window_bytes", o.stderrWindowBytes.map Value.int) ∈
      puts argv env o by simp [puts])) (fun n => asOption_spec rfl (asU64_int n)) (getD_some _)
  have hstrict : orDefault fs "strict_output" false asBool = some (o.strictOutput.getD false) :=
    reads_plain (hput (show ("strict_output", o.strictOutput.map Value.bool) ∈ puts argv env o by
      simp [puts])) (fun _ => rfl) (by cases o.strictOutput <;> rfl)
  rw [SpawnRequest.fromFields]
  simp only [hargv, hcd, henv, hmerge, hmode, hsignal, hpty, hcgroup, hstrict,
    Option.bind_eq_bind, Option.bind_some, bind_reads hgrace, bind_reads htimeout,
    bind_reads hkill, bind_reads hrows, bind_reads hcols, bind_reads huser, bind_reads hgroup,
    bind_reads hwindow, bind_reads hstderr]
  constructor
  · rintro ⟨hg, ht, hk, hr, hc, hu, hgr, hw, hs, heq⟩
    exact ⟨⟨hg, ht, hk, hr, hc, hu, hgr, hw, hs⟩, (Option.some.inj heq).symm⟩
  · rintro ⟨⟨hg, ht, hk, hr, hc, hu, hgr, hw, hs⟩, rfl⟩
    exact ⟨hg, ht, hk, hr, hc, hu, hgr, hw, hs, rfl⟩

lemma jsonSerde_reads : ReadsSpawn jsonSerde := by
  intro written hplain hnodup r
  have hsound : ∀ f ∈ written, f.Sound := fun f hf => (hplain f hf).2.sound
  have hkeys : ((written.map entry).map Prod.fst).Nodup := by
    rw [List.map_map]
    exact hnodup
  have hread : (decodeJson (encode (objectText .upper
      (written.map fun f => (f.key.toList, f.text))))).bind SpawnRequest.fromJson =
        SpawnRequest.fromFields (written.map entry) := by
    rw [decodeJson_fields hsound, Option.bind_some]
    exact fromJson_object hkeys
  rw [jsonSerde]
  dsimp only
  rw [hread]
  cases SpawnRequest.fromFields (written.map entry) with
  | none => exact ⟨nofun, nofun⟩
  | some request => exact ⟨fun h => congrArg some (Except.ok.inj h),
      fun h => congrArg Except.ok (Option.some.inj h)⟩

/-- The shim reads what the client asked for, or refuses a number that is too wide. -/
theorem spawn_round_trip (serde : Serde) (hserde : ReadsSpawn serde) {payload : Bytes}
    (h : Encodes argv o payload) :
    ∃ env, Option.Rel List.Perm env (o.env.map encodeEnv) ∧
      ∀ r, serde.spawn payload = .ok r ↔ o.Fits ∧ r = request argv env o := by
  obtain @⟨env, written, henv, hperm⟩ := h
  refine ⟨env, henv, fun r => ?_⟩
  have hplain : ∀ f ∈ written, f.key ∈ spawnFields ∧ Value.Plain ⟨f.text, f.value⟩ := by
    intro f hf
    exact present_plain (puts_known argv env o) (puts_plain argv env o) f (hperm.subset hf)
  have hentries : (written.map entry).Perm ((present (puts argv env o)).map entry) :=
    hperm.map entry
  have hnodup : (written.map Field.key).Nodup :=
    (hperm.map Field.key).nodup_iff.mpr (puts_keys argv env o)
  have hkeys : ((written.map entry).map Prod.fst).Nodup := by
    rw [List.map_map]
    exact hnodup
  rw [hserde written hplain hnodup, fromFields_congr (lookup_perm hentries hkeys)]
  exact fromFields_puts argv env o r

def wideOptions (killGraceMs : ℕ) : Options where
  cd := some "/tmp"
  env := some [("A", some "1"), ("B", none), ("A", none)]
  mergeStderr := false
  timeoutMs := none
  killGraceMs := some killGraceMs
  envMode := some .replace
  interruptSignal := some .int
  interruptGraceMs := some 1000
  user := some (.name "app")
  group := none
  windowBytes := none
  stderrWindowBytes := none
  strictOutput := none
  cgroup := .required
  pty := false
  ptyRows := some 24
  ptyCols := none

def widePayload (killGraceMs : ℕ) : Bytes :=
  encode (objectText .upper ((present (puts ["true"] (some [("B", none), ("A", none)])
    (wideOptions killGraceMs))).map fun f => (f.key.toList, f.text)))

/-- Nothing is lost of options that fit, and there are some that do not. -/
theorem spawn_round_trip_wide :
    (∃ env, Option.Rel List.Perm env (some [("B", none), ("A", none)]) ∧
      ∀ r, jsonSerde.spawn (widePayload 0) = .ok r ↔
        (wideOptions 0).Fits ∧ r = request ["true"] env (wideOptions 0)) ∧
      (wideOptions 0).Fits ∧ ¬(wideOptions (2 ^ 64)).Fits := by
  have hpayload : Encodes ["true"] (wideOptions 0) (widePayload 0) :=
    .mk (.some (.refl _)) (.refl _)
  refine ⟨spawn_round_trip jsonSerde jsonSerde_reads hpayload, ?_, ?_⟩
  · simp [Options.Fits, wideOptions, Options.rows, Options.cols, userFits]
  · intro h
    exact absurd (h.2.2.1 (2 ^ 64) rfl) (by simp)

end SpawnCodec

end Forcola.Beam
