import MmtCore.Lib.Reach
import MmtCore.Tsnaf.Streams

/-!
# Streams and their rules over a run

After each call the rules of the PCF, and those last pushed to the SMF, are those of the recorded
streams, as long as each call meets the condition `Keeps`.
-/

namespace MmtCore.Tsnaf

open MmtCore.Lib List Service AssocMap
open MmtCore.Pcf

variable {c : Config} {s s' : Service} {st : Stream} {n : Half} {H H' : Half → Prop}

/-! ## What is to hold -/

/-- The half belongs to a recorded stream. -/
def Recorded (c : Config) (s : Service) (h : Half) : Prop :=
  ∃ id st, s.streams.lookup id = some st ∧ h ∈ st.halves c

/-- The store has one rule for each of these halves, and no other. -/
def Installed (s : Service) (H : Half → Prop) : Prop :=
  ∀ k, Lists TscPccRule.serviceName Half.rule (s.rules k) fun h => H h ∧ h.ruleKey = k

/-- So has the SMF. -/
def Pushed (s : Service) (H : Half → Prop) : Prop :=
  ∀ k, Lists TscPccRule.serviceName Half.rule (s.pushed k) fun h => H h ∧ h.key = k

structure Sound (c : Config) (s : Service) : Prop where
  installed : Installed s (Recorded c s)
  pushed : Pushed s (Recorded c s)

theorem sound_init (c : Config) : Sound c Service.init := by
  have hnone : ∀ h, ¬ Recorded c init h := by
    rintro h ⟨id, st, hst, -⟩
    cases hst
  constructor <;> intro k <;> refine ⟨nodup_nil, fun a => ?_, fun h _ hP => ?_⟩
  · exact ⟨fun ha => absurd ha (not_mem_nil), fun ⟨h, hP, _⟩ => absurd hP.1 (hnone h)⟩
  · exact absurd hP.1 (hnone h)
  · exact ⟨fun ha => absurd ha (not_mem_nil), fun ⟨h, hP, _⟩ => absurd hP.1 (hnone h)⟩
  · exact absurd hP.1 (hnone h)

/-- The call left what is configured in force. -/
structure Undone (s s' : Service) : Prop where
  streams : s'.streams = s.streams
  gates : s'.gates = s.gates
  rules : ∀ k r, r ∈ s'.rules k ↔ r ∈ s.rules k
  pushed : s'.pushed = s.pushed

/-- Nothing of the stream is left. -/
structure Gone (c : Config) (st : Stream) (s : Service) : Prop where
  rules : ∀ h ∈ st.halves c, h.name ∉ ruleNames s.rules h.ruleKey
  pushed : ∀ h ∈ st.halves c, h.name ∉ (s.pushed h.key).map TscPccRule.serviceName
  gates : ∀ port, s.gates.lookup port ≠ some st.config.streamID

/-- What the call promises besides soundness: all or nothing, and nothing left behind. -/
def Event.Done (c : Config) (s : Service) : Event → Prop
  | .report _ => True
  | .configure cfg main peer gateSent =>
    (∃ st, (configureStream c s cfg main peer gateSent).2 = .ok st) ∨
      Undone s (configureStream c s cfg main peer gateSent).1
  | .remove id main peer =>
    ∀ st, s.streams.lookup id = some st → Gone c st (removeStream c s id main peer).1

def StepSound (c : Config) (s : Service) (e : Event) : Prop :=
  Sound c (s.step c e) ∧ e.Done c s

/-! ## The condition -/

namespace Half

/-- Another half: it is under the same rule key when it is on the same session, and has then a name
of its own. -/
def Beside (h n : Half) : Prop :=
  (h.ruleKey = n.ruleKey ↔ h.key = n.key) ∧ ¬ (h.ruleKey = n.ruleKey ∧ h.name = n.name)
  deriving Decidable

/-- The half that takes the place of `h`. -/
def Replaces (n h : Half) : Prop := n.ruleKey = h.ruleKey ∧ n.key = h.key ∧ n.name = h.name
  deriving Decidable

end Half

/-- The halves of a UE-UE stream are under two rule keys. -/
def Stream.Split (st : Stream) : Prop :=
  st.peerIMSI ≠ "" → (⟨st.imsi, st.dnn⟩ : TscRuleKey) ≠ ⟨st.peerIMSI, st.peerDNN⟩

/-- The association of the half's session is for its DNN, and the SMF takes the notification. -/
def Answer.Good (a : Answer) (h : Half) : Prop := a.dnn = some h.dnn ∧ a.delivered = true
  deriving Decidable

/-- The updates of all halves go through. -/
def Through (c : Config) (st : Stream) (main peer : Answer) : Prop :=
  main.Good (st.main c) ∧ (st.peerIMSI ≠ "" → peer.Good (st.peer c))

/-- No other stream is in the way of this one. -/
def Clear (c : Config) (s : Service) (st : Stream) : Prop :=
  ∀ e ∈ s.streams.entries, e.1 ≠ st.config.streamID →
    ∀ h ∈ e.2.halves c, ∀ n ∈ st.halves c, h.Beside n

/-- The stream has a half in the place of each half that is recorded under its id. -/
def Covers (c : Config) (s : Service) (st : Stream) : Prop :=
  ∀ e ∈ s.streams.entries, e.1 = st.config.streamID →
    ∀ h ∈ e.2.halves c, ∃ n ∈ st.halves c, n.Replaces h

/-- The rule of the half is not there yet. -/
def New (s : Service) (h : Half) : Prop := h.name ∉ ruleNames s.rules h.ruleKey
  deriving Decidable

/-- A request that is refused installs nothing.  One whose update fails must have had nothing to
undo but what was not there before, and nothing that the SMF knows.  One that succeeds must leave
each session of the stream where it was, and all notifications must arrive. -/
def KeepsPlan (c : Config) (s : Service) (main peer : Answer) :
    Except String (Stream × Port) → Prop
  | .error _ => True
  | .ok (st, _) =>
    if main.dnn = none then New s (st.main c)
    else if st.peerIMSI ≠ "" ∧ peer.dnn = none then
      main.delivered = false ∧ New s (st.main c) ∧ New s (st.peer c)
    else Through c st main peer ∧ st.Split ∧ Clear c s st ∧ Covers c s st

/-- All notifications of a removal must arrive, and the stream must have no gate. -/
def KeepsFound (c : Config) (s : Service) (id : String) (main peer : Answer) :
    Option Stream → Prop
  | none => True
  | some st =>
    Through c st main peer ∧ st.Split ∧ Clear c s st ∧ ∀ e ∈ s.gates.entries, e.2 ≠ id

/-- Which calls keep the rules in step with the streams. -/
def Keeps (c : Config) (s : Service) : Event → Prop
  | .report _ => True
  | .configure cfg main peer _ => KeepsPlan c s main peer (plan s.bridges cfg)
  | .remove id main peer => KeepsFound c s id main peer (s.streams.lookup id)

section

variable (c s st) (h : Half) (a : Answer) (main peer : Answer)

instance : Decidable (st.Split) := inferInstanceAs (Decidable (_ → _))

instance : Decidable (Through c st main peer) := inferInstanceAs (Decidable (_ ∧ _))

instance : Decidable (Clear c s st) :=
  inferInstanceAs (Decidable (∀ e ∈ s.streams.entries, e.1 ≠ st.config.streamID →
    ∀ h ∈ e.2.halves c, ∀ n ∈ st.halves c, h.Beside n))

instance : Decidable (Covers c s st) :=
  inferInstanceAs (Decidable (∀ e ∈ s.streams.entries, e.1 = st.config.streamID →
    ∀ h ∈ e.2.halves c, ∃ n ∈ st.halves c, n.Replaces h))

instance : ∀ p, Decidable (KeepsPlan c s main peer p)
  | .error _ => inferInstanceAs (Decidable True)
  | .ok (st, _) =>
    inferInstanceAs (Decidable (if main.dnn = none then New s (st.main c)
      else if st.peerIMSI ≠ "" ∧ peer.dnn = none then
        main.delivered = false ∧ New s (st.main c) ∧ New s (st.peer c)
      else Through c st main peer ∧ st.Split ∧ Clear c s st ∧ Covers c s st))

instance (id : String) : ∀ found, Decidable (KeepsFound c s id main peer found)
  | none => inferInstanceAs (Decidable True)
  | some st =>
    inferInstanceAs (Decidable (Through c st main peer ∧ st.Split ∧ Clear c s st ∧
      ∀ e ∈ s.gates.entries, e.2 ≠ id))

instance : ∀ e, Decidable (Keeps c s e)
  | .report _ => inferInstanceAs (Decidable True)
  | .configure cfg main peer _ =>
    inferInstanceAs (Decidable (KeepsPlan c s main peer (plan s.bridges cfg)))
  | .remove id main peer =>
    inferInstanceAs (Decidable (KeepsFound c s id main peer (s.streams.lookup id)))

end

/-! ## Pushing and recording -/

section

variable {k k' : Key} {dnn : String} {b : Bool} {egress : Port}

@[simp] theorem rules_push : (s.push k dnn b).rules = s.rules := by
  cases b <;> rfl

@[simp] theorem streams_push : (s.push k dnn b).streams = s.streams := by
  cases b <;> rfl

@[simp] theorem gates_push : (s.push k dnn b).gates = s.gates := by
  cases b <;> rfl

theorem pushed_push :
    (s.push k dnn true).pushed k' = if k' = k then s.rules ⟨k.imsi, dnn⟩ else s.pushed k' :=
  Function.update_apply ..

@[simp] theorem rules_programGate : (s.programGate st egress b).rules = s.rules := by
  unfold programGate
  split <;> rfl

@[simp] theorem streams_programGate : (s.programGate st egress b).streams = s.streams := by
  unfold programGate
  split <;> rfl

@[simp] theorem pushed_programGate : (s.programGate st egress b).pushed = s.pushed := by
  unfold programGate
  split <;> rfl

end

/-- The half belongs to a stream recorded under another id. -/
def Others (c : Config) (s : Service) (id : String) (h : Half) : Prop :=
  ∃ id' st, id' ≠ id ∧ s.streams.lookup id' = some st ∧ h ∈ st.halves c

section

variable {id : String} {h : Half}

theorem Others.recorded (ho : Others c s id h) : Recorded c s h :=
  let ⟨id', st, _, hst, hh⟩ := ho
  ⟨id', st, hst, hh⟩

theorem recorded_of_lookup (hst : s.streams.lookup id = some st) :
    Recorded c s h ↔ h ∈ st.halves c ∨ Others c s id h := by
  constructor
  · rintro ⟨id', st', hst', hh⟩
    by_cases heq : id' = id
    · grind
    · exact .inr ⟨id', st', heq, hst', hh⟩
  · rintro (hh | ho)
    · exact ⟨id, st, hst, hh⟩
    · exact ho.recorded

theorem recorded_record :
    Recorded c (s.record st) h ↔ h ∈ st.halves c ∨ Others c s st.config.streamID h := by
  have hst : (s.record st).streams.lookup st.config.streamID = some st :=
    lookup_assign
  rw [recorded_of_lookup hst]
  refine or_congr_right (exists_congr fun id' => exists_congr fun st' => ?_)
  refine and_congr_right fun hne => ?_
  rw [show (s.record st).streams = s.streams.assign st.config.streamID st from rfl,
    lookup_assign_ne hne]

theorem recorded_forget : Recorded c (s.forget id) h ↔ Others c s id h := by
  refine exists_congr fun id' => exists_congr fun st' => ?_
  rw [show (s.forget id).streams = s.streams.erase id from rfl, lookup_erase_eq]
  grind

end

/-! ## What the store lists -/

/-- The halves compete for one rule. -/
def Half.Same (h n : Half) : Prop := h.ruleKey = n.ruleKey ∧ h.name = n.name

theorem Installed.install (hi : Installed s H)
    (hH : ∀ h, H' h ↔ h = n ∨ H h ∧ ¬ h.Same n) : Installed (s.install n) H' := by
  intro k
  change Lists _ _ (installTscPccRule s.rules n.ruleKey n.rule k) _
  unfold installTscPccRule
  split
  · case isTrue hk =>
    refine (hi n.ruleKey).put fun h => ?_
    rw [hH, hk]
    constructor
    · rintro ⟨rfl | ⟨hh, hne⟩, hkey⟩
      · exact .inl rfl
      · exact .inr ⟨⟨hh, hkey⟩, fun hname => hne ⟨hkey, hname⟩⟩
    · rintro (rfl | ⟨⟨hh, hkey⟩, hname⟩)
      · exact ⟨.inl rfl, rfl⟩
      · exact ⟨.inr ⟨hh, fun hsame => hname hsame.2⟩, hkey⟩
  · case isFalse hk =>
    refine (hi k).congr fun h => and_congr_left fun hkey => ?_
    have hne : ¬ h.ruleKey = n.ruleKey := fun heq => hk (hkey ▸ heq)
    rw [hH]
    refine ⟨fun hh => ?_, fun hh => .inr ⟨hh, fun hsame => hne hsame.1⟩⟩
    grind

theorem Installed.uninstall (hi : Installed s H) (hH : ∀ h, H' h ↔ H h ∧ ¬ h.Same n) :
    Installed (s.uninstall n) H' := by
  intro k
  change Lists _ _ ((removeTscPccRule s.rules n.ruleKey n.name).1 k) _
  unfold removeTscPccRule
  dsimp only
  split
  · case isTrue hk =>
    refine (hi n.ruleKey).drop fun h => ?_
    rw [hH, hk]
    constructor
    · rintro ⟨⟨hh, hne⟩, hkey⟩
      exact ⟨⟨hh, hkey⟩, fun hname => hne ⟨hkey, hname⟩⟩
    · rintro ⟨⟨hh, hkey⟩, hname⟩
      exact ⟨⟨hh, fun hsame => hname hsame.2⟩, hkey⟩
  · case isFalse hk =>
    refine (hi k).congr fun h => and_congr_left fun hkey => ?_
    rw [hH]
    exact and_iff_left fun hsame => hk (hkey ▸ hsame.1)

/-- The sessions of these halves are pushed their rules, the others keep what they have. -/
theorem Pushed.renew (hp : Pushed s H) (hi : Installed s' H') (ns : List Half)
    (hnew : ∀ n ∈ ns, s'.pushed n.key = s'.rules n.ruleKey)
    (hfits : ∀ n ∈ ns, ∀ h, H' h → (h.ruleKey = n.ruleKey ↔ h.key = n.key))
    (hold : ∀ k, (∀ n ∈ ns, n.key ≠ k) → s'.pushed k = s.pushed k)
    (hsame : ∀ h, (∀ n ∈ ns, n.key ≠ h.key) → (H' h ↔ H h)) : Pushed s' H' := by
  intro k
  by_cases hk : ∃ n ∈ ns, n.key = k
  · obtain ⟨n, hn, rfl⟩ := hk
    rw [hnew n hn]
    exact (hi n.ruleKey).congr fun h => and_congr_right fun hh => (hfits n hn h hh).symm
  · have hk' : ∀ n ∈ ns, n.key ≠ k := fun n hn heq => hk ⟨n, hn, heq⟩
    rw [hold k hk']
    exact (hp k).congr fun h => and_congr_left fun hkey => hsame h (hkey ▸ hk')

/-- The same rules in another order. -/
theorem Installed.of_mem_iff (hi : Installed s H) (hnodup : ∀ k, (ruleNames s'.rules k).Nodup)
    (hmem : ∀ k r, r ∈ s'.rules k ↔ r ∈ s.rules k) : Installed s' H :=
  fun k => (hi k).of_mem_iff (hnodup k) (hmem k)

/-! ## The halves of a stream among the others -/

section

variable {h : Half}

theorem mem_halves :
    h ∈ st.halves c ↔ h = st.main c ∨ st.peerIMSI ≠ "" ∧ h = st.peer c := by
  grind [Stream.halves]

theorem main_mem_halves : st.main c ∈ st.halves c := mem_halves.2 (.inl rfl)

/-- Two halves of a stream are neither on one session nor, if it is split, under one rule key. -/
theorem halves_apart (hsplit : st.Split) {n : Half} (hh : h ∈ st.halves c)
    (hn : n ∈ st.halves c) (hne : h ≠ n) : h.ruleKey ≠ n.ruleKey ∧ h.key ≠ n.key := by
  obtain rfl | ⟨hp, rfl⟩ := mem_halves.1 hh
  · obtain rfl | ⟨hp, rfl⟩ := mem_halves.1 hn
    · exact absurd rfl hne
    · exact ⟨hsplit hp, fun heq => st.apart hp heq.symm⟩
  · obtain rfl | ⟨-, rfl⟩ := mem_halves.1 hn
    · exact ⟨fun heq => hsplit hp heq.symm, st.apart hp⟩
    · exact absurd rfl hne

theorem Clear.beside (hclear : Clear c s st) (ho : Others c s st.config.streamID h)
    (hn : n ∈ st.halves c) : h.Beside n := by
  obtain ⟨id, st', hne, hst', hh⟩ := ho
  exact hclear ⟨id, st'⟩ (mem_entries_iff.2 hst') hne h hh n hn

theorem fits_halves (hsplit : st.Split) (hclear : Clear c s st)
    (hh : h ∈ st.halves c ∨ Others c s st.config.streamID h) (hn : n ∈ st.halves c) :
    h.ruleKey = n.ruleKey ↔ h.key = n.key := by
  obtain hh | ho := hh
  · by_cases heq : h = n
    · rw [heq]
      exact iff_of_true rfl rfl
    · obtain ⟨hrule, hkey⟩ := halves_apart hsplit hh hn heq
      exact iff_of_false hrule hkey
  · exact (hclear.beside ho hn).1

/-- What is recorded is replaced by the stream, or belongs to another one. -/
theorem Covers.recorded (hcov : Covers c s st) (hr : Recorded c s h) :
    (∃ n ∈ st.halves c, n.Replaces h) ∨ Others c s st.config.streamID h := by
  obtain ⟨id, st', hst', hh⟩ := hr
  by_cases heq : id = st.config.streamID
  · exact .inl (hcov ⟨id, st'⟩ (mem_entries_iff.2 hst') heq h hh)
  · exact .inr ⟨id, st', heq, hst', hh⟩

end

/-! ## A call that fails -/

theorem recorded_congr (h : s'.streams = s.streams) : Recorded c s' = Recorded c s := by
  unfold Recorded
  rw [h]

theorem Installed.nodup (hi : Installed s H) (k : TscRuleKey) : (ruleNames s.rules k).Nodup :=
  (hi k).nodup

theorem Sound.of_undone (hs : Sound c s) (hu : Undone s s')
    (hnodup : ∀ k, (ruleNames s'.rules k).Nodup) : Sound c s' := by
  have hrec : Recorded c s' = Recorded c s := recorded_congr hu.streams
  refine ⟨?_, fun k => ?_⟩
  · rw [hrec]
    exact hs.installed.of_mem_iff hnodup hu.rules
  · rw [hrec, hu.pushed]
    exact hs.pushed k

/-- A rule that was not there is taken out again. -/
theorem undone_install (hi : Installed s H) (hnew : New s n) :
    Undone s ((s.install n).uninstall n) :=
  ⟨rfl, rfl, fun _ _ => mem_remove_install (hi.nodup _) hnew, rfl⟩

theorem main_name_ne (st : Stream) : (st.peer c).name ≠ (st.main c).name := by
  intro heq
  have hlen := congrArg String.length (show st.peerRuleName = st.ruleName from heq)
  simp_all [Stream.peerRuleName, Stream.ruleName]

/-- Both rules are taken out again, where neither was there. -/
theorem undone_install₂ (hi : Installed s H) (hmain : New s (st.main c))
    (hpeer : New s (st.peer c)) :
    Undone s ((((s.install (st.main c)).install (st.peer c)).uninstall (st.peer c)).uninstall
      (st.main c)) := by
  have hi₁ : ∀ k, (ruleNames (s.install (st.main c)).rules k).Nodup := fun k =>
    nodup_install (hi.nodup k)
  have hpeer₁ : New (s.install (st.main c)) (st.peer c) := by
    intro hmem
    obtain ⟨r, hr, hname⟩ := mem_map.1 hmem
    obtain ⟨-, rfl⟩ | ⟨hr, -⟩ := (mem_install (hi.nodup _)).1 hr
    · exact main_name_ne st hname.symm
    · exact hpeer (mem_map.2 ⟨r, hr, hname⟩)
  refine ⟨rfl, rfl, fun k r => ?_, rfl⟩
  calc r ∈ (((((s.install (st.main c)).install (st.peer c)).uninstall (st.peer c)).uninstall
        (st.main c))).rules k
      ↔ r ∈ (((s.install (st.main c)).install (st.peer c)).uninstall (st.peer c)).rules k ∧
          ¬ (k = (st.main c).ruleKey ∧ r.serviceName = (st.main c).name) :=
        mem_remove (nodup_remove (nodup_install (hi₁ _)))
    _ ↔ r ∈ (s.install (st.main c)).rules k ∧
          ¬ (k = (st.main c).ruleKey ∧ r.serviceName = (st.main c).name) :=
        and_congr_left fun _ => mem_remove_install (hi₁ _) hpeer₁
    _ ↔ r ∈ ((s.install (st.main c)).uninstall (st.main c)).rules k := (mem_remove (hi₁ _)).symm
    _ ↔ r ∈ s.rules k := mem_remove_install (hi.nodup _) hmain

/-! ## A stream that is configured -/

/-- The store after the rules of all halves have been installed lists the new records. -/
theorem installed_configured (hcov : Covers c s st) (hclear : Clear c s st) (h : Half) :
    (h ∈ st.halves c ∨ Recorded c s h ∧ ∀ n ∈ st.halves c, ¬ h.Same n) ↔
      h ∈ st.halves c ∨ Others c s st.config.streamID h := by
  refine or_congr_right ⟨?_, fun ho => ⟨ho.recorded, fun n hn hsame => ?_⟩⟩
  · rintro ⟨hr, hnone⟩
    obtain ⟨n, hn, hrep⟩ | ho := hcov.recorded hr
    · exact absurd ⟨hrep.1.symm, hrep.2.2.symm⟩ (hnone n hn)
    · exact ho
  · exact (hclear.beside ho hn).2 hsame

theorem recorded_untouched (hcov : Covers c s st) {h : Half}
    (hk : ∀ n ∈ st.halves c, n.key ≠ h.key) :
    (h ∈ st.halves c ∨ Others c s st.config.streamID h) ↔ Recorded c s h := by
  constructor
  · rintro (hh | ho)
    · exact absurd rfl (hk h hh)
    · exact ho.recorded
  · intro hr
    obtain ⟨n, hn, hrep⟩ | ho := hcov.recorded hr
    · exact absurd hrep.2.1 (hk n hn)
    · exact .inr ho

/-- All rules of the stream are in the store and pushed, and it is recorded. -/
theorem sound_configured (hs : Sound c s) (hsplit : st.Split) (hclear : Clear c s st)
    (hcov : Covers c s st) (hstreams : s'.streams = s.streams)
    (hi : Installed s' fun h => h ∈ st.halves c ∨ Others c s st.config.streamID h)
    (hnew : ∀ n ∈ st.halves c, s'.pushed n.key = s'.rules n.ruleKey)
    (hold : ∀ k, (∀ n ∈ st.halves c, n.key ≠ k) → s'.pushed k = s.pushed k) :
    Sound c (s'.record st) := by
  have hrec : Recorded c (s'.record st) =
      fun h => h ∈ st.halves c ∨ Others c s st.config.streamID h := by
    funext h
    rw [recorded_record]
    unfold Others
    rw [hstreams]
  have hpushed : Pushed s' fun h => h ∈ st.halves c ∨ Others c s st.config.streamID h :=
    hs.pushed.renew hi (st.halves c) hnew (fun n hn h hh => fits_halves hsplit hclear hh hn) hold
      fun h hk => recorded_untouched hcov hk
  constructor
  · rw [hrec]
    exact hi
  · rw [hrec]
    exact hpushed

variable {main peer : Answer} {gateSent : Bool}

theorem sound_one (egress : Port) (gateSent : Bool) (hs : Sound c s)
    (hone : st.peerIMSI = "") (hclear : Clear c s st)
    (hcov : Covers c s st) :
    Sound c ((((s.install (st.main c)).push (st.main c).key st.dnn true).programGate st egress
      gateSent).record st) := by
  have hhalves : st.halves c = [st.main c] := if_pos hone
  have hsplit : st.Split := fun hne => absurd hone hne
  refine sound_configured hs hsplit hclear hcov (by simp; rfl) (fun k => ?_) (fun n hn => ?_)
    fun k hk => ?_
  · rw [rules_programGate, rules_push]
    refine hs.installed.install (fun h => ?_) k
    rw [← installed_configured hcov hclear h, hhalves]
    simp
  · rw [hhalves, mem_singleton] at hn
    rw [hn, pushed_programGate, pushed_push, if_pos rfl, rules_programGate, rules_push]
    rfl
  · have hmain : k ≠ (st.main c).key := (hk _ main_mem_halves).symm
    rw [pushed_programGate, pushed_push, if_neg hmain]
    rfl

theorem sound_two (egress : Port) (gateSent : Bool) (hs : Sound c s)
    (htwo : st.peerIMSI ≠ "") (hsplit : st.Split) (hclear : Clear c s st) (hcov : Covers c s st) :
    Sound c ((((((s.install (st.main c)).push (st.main c).key st.dnn true).install
      (st.peer c)).push (st.peer c).key st.peerDNN true).programGate st egress
        gateSent).record st) := by
  have hhalves : st.halves c = [st.main c, st.peer c] := if_neg htwo
  have hrule : (st.main c).ruleKey ≠ (st.peer c).ruleKey := hsplit htwo
  have hkey : (st.main c).key ≠ (st.peer c).key := (st.apart htwo).symm
  refine sound_configured hs hsplit hclear hcov (by simp; rfl) (fun k => ?_) (fun n hn => ?_)
    fun k hk => ?_
  · have hi : Installed ((s.install (st.main c)).install (st.peer c)) fun h =>
        h ∈ st.halves c ∨ Others c s st.config.streamID h := by
      refine (hs.installed.install fun h => Iff.rfl).install fun h => ?_
      have hother : ¬ (st.main c).Same (st.peer c) := fun hsame => hrule hsame.1
      rw [← installed_configured hcov hclear h, hhalves]
      by_cases heq : h = st.main c
      · simp [heq, hother]
      · simp [heq, and_assoc]
    have hrules : ((((((s.install (st.main c)).push (st.main c).key st.dnn true).install
        (st.peer c)).push (st.peer c).key st.peerDNN true).programGate st egress
          gateSent)).rules = ((s.install (st.main c)).install (st.peer c)).rules := by
      rw [rules_programGate, rules_push]
      rfl
    rw [hrules]
    exact hi k
  · rw [pushed_programGate, pushed_push, rules_programGate, rules_push]
    rw [hhalves] at hn
    obtain rfl | hn := mem_cons.1 hn
    · -- the second rule is under another key, so what the first push carried is still there
      rw [if_neg hkey]
      change (((s.install (st.main c)).push (st.main c).key st.dnn true).pushed _) = _
      rw [pushed_push, if_pos rfl]
      exact (if_neg hrule).symm
    · rw [mem_singleton.1 hn, if_pos rfl]
      rfl
  · have hmain : k ≠ (st.main c).key := (hk _ main_mem_halves).symm
    have hpeer : k ≠ (st.peer c).key := (hk _ (mem_halves.2 (.inr ⟨htwo, rfl⟩))).symm
    rw [pushed_programGate, pushed_push, if_neg hpeer]
    change (((s.install (st.main c)).push (st.main c).key st.dnn true).pushed _) = _
    rw [pushed_push, if_neg hmain]
    rfl

/-! ## A stream that is removed -/

section

variable {id : String}

theorem config_id (hst : s.streams.lookup id = some st) : st.config.streamID = id :=
  s.keyed id st hst

theorem others_iff (hst : s.streams.lookup id = some st) (hclear : Clear c s st) (h : Half) :
    Others c s id h ↔ Recorded c s h ∧ ∀ n ∈ st.halves c, ¬ h.Same n := by
  rw [recorded_of_lookup hst]
  constructor
  · intro ho
    exact ⟨.inr ho, fun n hn => (hclear.beside (config_id hst ▸ ho) hn).2⟩
  · rintro ⟨hh | ho, hnone⟩
    · exact absurd ⟨rfl, rfl⟩ (hnone h hh)
    · exact ho

section

variable (hs : Sound c s) (hst : s.streams.lookup id = some st)
include hs hst

/-- No rule of the stream is in the store, and its sessions have been pushed what is there. -/
theorem sound_removed (hsplit : st.Split)
    (hclear : Clear c s st) (hgates : ∀ e ∈ s.gates.entries, e.2 ≠ id)
    (hstreams : s'.streams = s.streams.erase id) (hkept : s'.gates = s.gates)
    (hi : Installed s' (Others c s id))
    (hnew : ∀ n ∈ st.halves c, s'.pushed n.key = s'.rules n.ruleKey)
    (hold : ∀ k, (∀ n ∈ st.halves c, n.key ≠ k) → s'.pushed k = s.pushed k) :
    Sound c s' ∧ Gone c st s' := by
  have hid : st.config.streamID = id := config_id hst
  have hrec : Recorded c s' = Others c s id := by
    funext h
    have hforget : Recorded c s' h = Recorded c (s.forget id) h := by
      rw [recorded_congr (show s'.streams = (s.forget id).streams from hstreams)]
    rw [hforget]
    exact propext recorded_forget
  have hpushed : Pushed s' (Others c s id) := by
    refine hs.pushed.renew hi (st.halves c) hnew (fun n hn h ho => ?_) hold fun h hk => ?_
    · exact fits_halves hsplit hclear (.inr (hid.symm ▸ ho)) hn
    · grind [recorded_of_lookup]
  have hnone : ∀ h ∈ st.halves c, h.name ∉ ruleNames s'.rules h.ruleKey := by
    intro h hh hmem
    obtain ⟨r, hr, hname⟩ := mem_map.1 hmem
    obtain ⟨h', ⟨ho, hrule⟩, rfl⟩ := ((hi h.ruleKey).mem r).1 hr
    exact (hclear.beside (hid.symm ▸ ho) hh).2 ⟨hrule, hname⟩
  refine ⟨⟨hrec ▸ hi, hrec ▸ hpushed⟩, hnone, fun h hh => ?_, fun port hport => ?_⟩
  · rw [hnew h hh]
    exact hnone h hh
  · rw [hkept, hid] at hport
    exact hgates ⟨port, id⟩ (mem_entries_iff.2 hport) rfl

theorem removed_one (hone : st.peerIMSI = "") (hclear : Clear c s st)
    (hgates : ∀ e ∈ s.gates.entries, e.2 ≠ id) :
    Sound c (((s.forget id).uninstall (st.main c)).push (st.main c).key st.dnn true) ∧
      Gone c st (((s.forget id).uninstall (st.main c)).push (st.main c).key st.dnn true) := by
  have hhalves : st.halves c = [st.main c] := if_pos hone
  refine sound_removed hs hst (fun hne => absurd hone hne) hclear hgates rfl rfl (fun k => ?_)
    (fun n hn => ?_) fun k hk => ?_
  · have hi : Installed ((s.forget id).uninstall (st.main c)) (Others c s id) := by
      refine (show Installed (s.forget id) (Recorded c s) from hs.installed).uninstall fun h => ?_
      rw [others_iff hst hclear h, hhalves]
      simp
    exact hi k
  · rw [hhalves, mem_singleton] at hn
    rw [hn, pushed_push, if_pos rfl]
    rfl
  · have hmain : k ≠ (st.main c).key := (hk _ main_mem_halves).symm
    rw [pushed_push, if_neg hmain]
    rfl

theorem removed_two (htwo : st.peerIMSI ≠ "") (hsplit : st.Split) (hclear : Clear c s st)
    (hgates : ∀ e ∈ s.gates.entries, e.2 ≠ id) :
    Sound c (((((s.forget id).uninstall (st.main c)).uninstall (st.peer c)).push
        (st.peer c).key st.peerDNN true).push (st.main c).key st.dnn true) ∧
      Gone c st (((((s.forget id).uninstall (st.main c)).uninstall (st.peer c)).push
        (st.peer c).key st.peerDNN true).push (st.main c).key st.dnn true) := by
  have hhalves : st.halves c = [st.main c, st.peer c] := if_neg htwo
  have hkey : (st.peer c).key ≠ (st.main c).key := st.apart htwo
  refine sound_removed hs hst hsplit hclear hgates rfl rfl (fun k => ?_) (fun n hn => ?_)
    fun k hk => ?_
  · have hi : Installed (((s.forget id).uninstall (st.main c)).uninstall (st.peer c))
        (Others c s id) := by
      refine ((show Installed (s.forget id) (Recorded c s) from hs.installed).uninstall
        fun h => Iff.rfl).uninstall fun h => ?_
      rw [others_iff hst hclear h, hhalves]
      simp [and_assoc]
    exact hi k
  · rw [pushed_push, rules_push]
    rw [hhalves] at hn
    obtain rfl | hn := mem_cons.1 hn
    · rw [if_pos rfl]
      rfl
    · rw [mem_singleton.1 hn, if_neg hkey, pushed_push, if_pos rfl]
      rfl
  · have hmain : k ≠ (st.main c).key := (hk _ main_mem_halves).symm
    have hpeer : k ≠ (st.peer c).key := (hk _ (mem_halves.2 (.inr ⟨htwo, rfl⟩))).symm
    rw [pushed_push, if_neg hmain, pushed_push, if_neg hpeer]
    rfl

/-- The rule of the peer is there when the stream is removed. -/
theorem revokePeer_two
    (htwo : st.peerIMSI ≠ "") (hsplit : st.Split) (hpeer : peer.Good (st.peer c)) :
    revokePeer c ((s.forget id).uninstall (st.main c)) st peer =
      (((s.forget id).uninstall (st.main c)).uninstall (st.peer c)).push
        (st.peer c).key st.peerDNN true := by
  have hmem : (st.peer c).rule ∈ s.rules (st.peer c).ruleKey := by
    refine ((hs.installed (st.peer c).ruleKey).mem _).2 ⟨st.peer c, ⟨⟨id, st, hst, ?_⟩, rfl⟩, rfl⟩
    exact mem_halves.2 (.inr ⟨htwo, rfl⟩)
  have hhad : (removeTscPccRule ((s.forget id).uninstall (st.main c)).rules (st.peer c).ruleKey
      (st.peer c).name).2 = true := by
    refine removed_iff.2 (mem_map.2 ⟨(st.peer c).rule, ?_, rfl⟩)
    refine (mem_remove (hs.installed.nodup _)).2 ⟨hmem, fun hsame => ?_⟩
    exact hsplit htwo hsame.1.symm
  unfold revokePeer
  rw [if_neg htwo]
  rw [if_pos hhad, hpeer.1, hpeer.2]
  rfl

end

end

/-! ## Every call of a run -/

theorem stepSound_configure {cfg : StreamConfig} (hs : Sound c s)
    (hk : Keeps c s (.configure cfg main peer gateSent)) :
    StepSound c s (.configure cfg main peer gateSent) := by
  have hundone : ∀ {s' : Service},
      (configureStream c s cfg main peer gateSent).1 = s' → Undone s s' →
      (∀ k, (ruleNames s'.rules k).Nodup) → StepSound c s (.configure cfg main peer gateSent) := by
    intro s' heq hu hnodup
    have hstep : s.step c (.configure cfg main peer gateSent) = s' := heq
    exact ⟨hstep ▸ hs.of_undone hu hnodup, .inr (heq ▸ hu)⟩
  have hdone : ∀ {s' : Service} {st : Stream},
      configureStream c s cfg main peer gateSent = (s', .ok st) → Sound c s' →
      StepSound c s (.configure cfg main peer gateSent) := by
    intro s' st heq hsound
    have hstep : s.step c (.configure cfg main peer gateSent) = s' := congrArg Prod.fst heq
    exact ⟨hstep ▸ hsound, .inl ⟨st, congrArg Prod.snd heq⟩⟩
  change KeepsPlan c s main peer (plan s.bridges cfg) at hk
  cases hplan : plan s.bridges cfg with
  | error e =>
    refine @hundone s ?_ ⟨rfl, rfl, fun _ _ => Iff.rfl, rfl⟩
      hs.installed.nodup
    simp only [configureStream, hplan]
  | ok p =>
    obtain ⟨st, egress⟩ := p
    rw [hplan] at hk
    simp only [KeepsPlan] at hk
    split at hk
    · case isTrue hnone =>
      refine hundone ?_ (undone_install hs.installed hk)
        fun k => nodup_remove (nodup_install (hs.installed.nodup k))
      simp only [configureStream, hplan, hnone]
    · case isFalse hsome =>
      obtain ⟨dnn, hdnn⟩ := Option.ne_none_iff_exists'.1 hsome
      split at hk
      · case isTrue hfail =>
        obtain ⟨hdel, hmain, hpeer⟩ := hk
        refine hundone ?_ (undone_install₂ hs.installed hmain hpeer)
          fun k => nodup_remove (nodup_remove (nodup_install (nodup_install
            (hs.installed.nodup k))))
        simp only [configureStream, hplan, hdnn, if_neg hfail.1, hfail.2, hdel]
        rfl
      · case isFalse hgo =>
        obtain ⟨⟨hmain, hpeer⟩, hsplit, hclear, hcov⟩ := hk
        by_cases hone : st.peerIMSI = ""
        · refine @hdone _ st ?_ (sound_one egress gateSent hs hone hclear hcov)
          simp only [configureStream, hplan, hmain.1, hmain.2, if_pos hone]
          rfl
        · refine @hdone _ st ?_ (sound_two egress gateSent hs hone hsplit hclear hcov)
          simp only [configureStream, hplan, hmain.1, hmain.2, if_neg hone, (hpeer hone).1,
            (hpeer hone).2]
          rfl

theorem stepSound_remove {id : String} (hs : Sound c s) (hk : Keeps c s (.remove id main peer)) :
    StepSound c s (.remove id main peer) := by
  change KeepsFound c s id main peer (s.streams.lookup id) at hk
  cases hst : s.streams.lookup id with
  | none =>
    have hstep : s.step c (.remove id main peer) = s := by
      simp only [step, removeStream, hst]
    refine ⟨hstep.symm ▸ hs, fun st hst' => ?_⟩
    rw [hst] at hst'
    cases hst'
  | some st =>
    rw [hst] at hk
    obtain ⟨⟨hmain, hpeer⟩, hsplit, hclear, hgates⟩ := hk
    have hall : Sound c (s.step c (.remove id main peer)) ∧
        Gone c st (s.step c (.remove id main peer)) := by
      by_cases hone : st.peerIMSI = ""
      · have hstep : s.step c (.remove id main peer) =
            ((s.forget id).uninstall (st.main c)).push (st.main c).key st.dnn true := by
          simp only [step, removeStream, hst, hmain.1, hmain.2, revokePeer, if_pos hone]
          rfl
        rw [hstep]
        exact removed_one hs hst hone hclear hgates
      · have hstep : s.step c (.remove id main peer) =
            ((((s.forget id).uninstall (st.main c)).uninstall (st.peer c)).push
              (st.peer c).key st.peerDNN true).push (st.main c).key st.dnn true := by
          simp only [step, removeStream, hst, hmain.1, hmain.2,
            revokePeer_two hs hst hone hsplit (hpeer hone)]
          rfl
        grind [removed_two]
    refine ⟨hall.1, fun st' hst' => ?_⟩
    rw [hst] at hst'
    exact Option.some.inj hst' ▸ hall.2

theorem stepSound_of_keeps {e : Event} (hs : Sound c s) (hk : Keeps c s e) : StepSound c s e := by
  cases e with
  | report bridges =>
    exact ⟨⟨hs.installed, hs.pushed⟩, trivial⟩
  | configure cfg main peer gateSent => exact stepSound_configure hs hk
  | remove id main peer => exact stepSound_remove hs hk

/-- From any state whose rules are those of its streams, each call of a run leaves them so, and does
all or nothing. -/
theorem streams_sound {es : List Event} (hs : Sound c s)
    (hm : Meets (Service.step c) (Keeps c) s es) : Meets (Service.step c) (StepSound c) s es :=
  Meets.imp (I := Sound c) (fun _ _ hs hk => ⟨stepSound_of_keeps hs hk,
    (stepSound_of_keeps hs hk).1⟩) hm hs

/-! ## Runs -/

/-- Two DS-TT ports and one NW-TT port. -/
def samplePorts : UInt16 → Option Port
  | 1 => some ⟨1, true, "02-00-00-00-00-01", "001010000000001", 5, "tsn"⟩
  | 2 => some ⟨2, true, "02-00-00-00-00-02", "001010000000002", 5, "tsn"⟩
  | 9 => some ⟨9, false, "", "", 0, ""⟩
  | _ => none

def sampleStream (id : String) (ingress egress : UInt16) (intervalUS : Int) : StreamConfig :=
  { streamID := id, bridgeID := 1, ingressPort := ingress, egressPort := egress, trafficClass := 5
    maxFrameSizeOctets := 200, framesPerInterval := 1, intervalUS := intervalUS
    burstArrivalTimeNS := 0, timeDomain := 0, destMAC := "", vlanID := 0, gateSchedule := [] }

/-- The policy association of a session for the DNN of the ports, and an update that fails. -/
def sampleAnswer : Answer := ⟨some "tsn", true⟩

def sampleFailure : Answer := ⟨none, false⟩

def sampleBridges : Bridges := fun id => if id = 1 then some samplePorts else none

theorem streams_sound_sample :
    Meets (Service.step defaultConfig) (StepSound defaultConfig) Service.init
      [.report sampleBridges,
        .configure (sampleStream "a" 1 9 1000) sampleAnswer sampleAnswer true,
        .configure (sampleStream "b" 1 2 1000) sampleAnswer sampleAnswer true,
        .configure (sampleStream "a" 1 9 500) sampleAnswer sampleAnswer true,
        .configure (sampleStream "c" 9 2 1000) sampleFailure sampleFailure true,
        .remove "b" sampleAnswer sampleAnswer] :=
  streams_sound (sound_init _) (by decide)

/-- A stream that is configured again, where the second update fails. -/
def lostRun : List Event :=
  [.report sampleBridges,
    .configure (sampleStream "a" 1 9 1000) sampleAnswer sampleAnswer true,
    .configure (sampleStream "a" 1 9 500) sampleFailure sampleFailure true]

theorem Sound.rule_mem (hs : Sound c s) :
    ∀ e ∈ s.streams.entries, ∀ h ∈ e.2.halves c, h.rule ∈ s.rules h.ruleKey := by
  intro e he h hh
  have hst : s.streams.lookup e.1 = some e.2 := mem_entries_iff.1 he
  exact ((hs.installed h.ruleKey).mem h.rule).2 ⟨h, ⟨⟨e.1, e.2, hst, hh⟩, rfl⟩, rfl⟩

/-- The rule of the first configuration is gone, and the stream is still recorded. -/
theorem not_streams_sound :
    ¬ ∀ (c : Config) (s : Service) (es : List Event), Sound c s →
      Meets (Service.step c) (StepSound c) s es := by
  intro hall
  have hrun := hall defaultConfig init lostRun (sound_init _)
  have hlast : Sound defaultConfig (run (step defaultConfig) init lostRun) :=
    hrun.2.2.1.1
  have hlost : ∃ e ∈ (run (step defaultConfig) init lostRun).streams.entries,
      ∃ h ∈ e.2.halves defaultConfig,
        h.rule ∉ (run (step defaultConfig) init lostRun).rules h.ruleKey := by
    decide
  obtain ⟨e, he, h, hh, hnot⟩ := hlost
  exact hnot (hlast.rule_mem e he h hh)

end MmtCore.Tsnaf
