import MmtCore.Amf.Run

/-!
# What the functions of the AMF may do

Every function of the model is a run of commands.  `Acts r L s t` says that `t` is reached from
`s` by commands about the context `r` only, all of the kinds in `L`.  One lemma for each function
gives its kinds, and an invariant is then proved once for every command of those kinds.
-/

namespace MmtCore.Amf

open MmtCore.Lib List AmfState Cmd

/-! ## Kinds of commands -/

inductive Kind
  | book | rm | sessions | tmsi | imsi | rebind | create | insert | unindex
  | take | enterSecurityMode | cancel | resetTo | dropFsm
  | cap | resetAuthentication | authRetry | ngksiFlag | authDone | challenge | answer
  | activate | promote | markActivated | clearPending | ul | dl | migrate
  | send | smf | note | reuse | abort
deriving DecidableEq

/-- The kind of the commands that log the observation. -/
def Obs.kind : Obs → Kind
  | .challenged .. => .challenge
  | .answered _ => .answer
  | .activated .. => .activate
  | .promoted _ => .promote
  | .ulAccepted .. => .ul
  | .dlSecured .. => .dl
  | .nasSent .. | .ngapSent .. => .send
  | .contextReused .. => .reuse
  | .aborted _ => .abort
  | .noTransition .. => .note
  | .smf .. => .smf

def Cmd.kind : Cmd → Kind
  | .book .. => .book
  | .setRm .. => .rm
  | .setSessions .. => .sessions
  | .setTmsi .. => .tmsi
  | .setImsi .. => .imsi
  | .rebind .. => .rebind
  | .create .. => .create
  | .insert _ => .insert
  | .unindex _ => .unindex
  | .take _ t => if t.target = .securityMode then .enterSecurityMode else .take
  | .cancel .. | .cancelAll _ => .cancel
  | .resetTo .. => .resetTo
  | .dropFsm _ => .dropFsm
  | .setUESecCap .. => .cap
  | .resetAuthentication _ => .resetAuthentication
  | .countAuthRetry _ => .authRetry
  | .unassignNgksi _ => .ngksiFlag
  | .setAuthDone .. => .authDone
  | .challenge .. | .rechallenge .. => .challenge
  | .answer _ => .answer
  | .activate .. => .activate
  | .promote _ => .promote
  | .markActivated _ => .markActivated
  | .clearPending _ => .clearPending
  | .acceptUl .. => .ul
  | .secureDl .. => .dl
  | .migrate .. => .migrate
  | .emit o => o.kind

/-- The observation is about the context, or about its subscriber. -/
def Obs.On (r : Ref) (s : AmfState) : Obs → Prop
  | .challenged q _ _ | .answered q | .activated q _ | .promoted q | .ulAccepted q _ _ _
  | .dlSecured q _ _ _ _ | .nasSent q _ _ | .ngapSent q _ _ | .contextReused q _ | .aborted q
  | .noTransition q _ _ => q = r
  | .smf imsi _ => imsi = (s.ue r).imsi

/-- The command is about the context `r`; a transition is a row of the table, and a reset is to
the registered state. -/
def Cmd.On (r : Ref) (s : AmfState) : Cmd → Prop
  | .book q _ | .setRm q _ | .setSessions q _ | .setTmsi q _ | .setImsi q _ | .rebind q _ _
  | .insert q | .unindex q | .cancel q _ | .cancelAll q | .dropFsm q
  | .setUESecCap q _ | .resetAuthentication q | .countAuthRetry q | .unassignNgksi q
  | .setAuthDone q _ | .challenge q _ _ | .rechallenge q _ | .answer q | .activate _ q _ _ _
  | .promote q | .markActivated q | .clearPending q | .acceptUl q _ _ _ | .secureDl q _ _ _
  | .migrate _ q => q = r
  | .take q t => q = r ∧ t ∈ gmmTransitions
  | .resetTo q st => q = r ∧ st = .registered
  | .create .. => s.nref = r
  | .emit o => o.On r s

/-- From `s` to `t` by commands about `r` of the kinds in `L`. -/
def Acts (r : Ref) (L : List Kind) (s t : AmfState) : Prop :=
  Reach AmfState.exec (fun s c => c.On r s ∧ c.kind ∈ L) s t

variable {r : Ref} {L M : List Kind} {s t u : AmfState}

theorem Acts.refl : Acts r L s s := Reach.start

theorem Acts.mono (h : Acts r L s t) (hL : L.all M.elem = true) : Acts r M s t :=
  Reach.mono (fun _ _ hc => ⟨hc.1, elem_iff.1 (all_eq_true.1 hL _ hc.2)⟩) h

/-- More of the kinds already allowed. -/
theorem Acts.andThen (h : Acts r M s t) (h' : Acts r L t u) (hL : L.all M.elem = true) :
    Acts r M s u :=
  Reach.trans h (h'.mono hL)

/-- One more command; both side conditions compute. -/
theorem Acts.exec {c : Cmd} (h : Acts r L s t) (hon : c.On r t) (hk : L.elem c.kind = true) :
    Acts r L s (t.exec c) :=
  Reach.next c h ⟨hon, elem_iff.1 hk⟩

theorem Acts.one {c : Cmd} (hon : c.On r s) (hk : L.elem c.kind = true) :
    Acts r L s (s.exec c) :=
  Acts.refl.exec hon hk

theorem book_acts (f : Book → Book) : Acts r [.book] s (s.exec (.book r f)) :=
  Acts.one rfl rfl

/-- A property that every command of these kinds keeps holds after the run. -/
theorem Acts.keeps (I : AmfState → Prop)
    (h : Acts r L s t) (hI : ∀ s c, c.On r s → c.kind ∈ L → I s → I (s.exec c)) (hs : I s) :
    I t :=
  Reach.invariant hs (fun s c hi hc => hI s c hc.1 hc.2 hi) h

/-! ## Effects and frames -/

/-- What a command does to the context it is about. -/
def Cmd.effect (s : AmfState) : Cmd → Ue → Ue
  | .book _ f, u => { u with book := f u.book }
  | .setRm _ rm, u => { u with rm := rm }
  | .setSessions _ l, u => { u with pduSessions := l }
  | .setTmsi _ tmsi, u => { u with tmsi5g := tmsi }
  | .setImsi _ imsi, u => { u with imsi := imsi }
  | .rebind _ gnbKey ran, u => { u with gnbKey := gnbKey, ranUeNgapId := ran }
  | .create id ran gnbKey, _ => Ue.new id ran gnbKey []
  | .insert _, u | .unindex _, u | .emit _, u => u
  | .take _ t, u => u.take t
  | .cancel _ t, u => { u with timers := Function.update u.timers t none }
  | .cancelAll _, u => { u with timers := fun _ => none }
  | .resetTo _ st, u => { u with fsm := st }.mirror st
  | .dropFsm _, u => { u with fsm := .deregistered }
  | .setUESecCap _ cap, u => { u with sec := { u.sec with ueSecCap := cap } }
  | .resetAuthentication _, u => { u with sec := { u.sec with abba := [0, 0], authDone := false } }
  | .countAuthRetry _, u =>
    { u with sec := { u.sec with authRetryCount := u.sec.authRetryCount + 1 } }
  | .unassignNgksi _, u => { u with sec := { u.sec with ngksiAssigned := false } }
  | .setAuthDone _ b, u => { u with sec := { u.sec with authDone := b } }
  | .challenge _ av ngksi, u => { u with sec := u.sec.challenge av ngksi }
  | .rechallenge _ ngksi, u => { u with sec := { u.sec with pendingNgksi := ngksi } }
  | .answer _, u => { u with sec := { u.sec with authDone := true } }
  | .activate V _ ngksi eea eia, u => { u with sec := u.sec.activate V ngksi eea eia }
  | .promote _, u => { u with sec := u.sec.promote }
  | .markActivated _, u => { u with sec := { u.sec with authDone := true, activated := true } }
  | .clearPending _, u => { u with sec := u.sec.clearPending }
  | .acceptUl _ p count _, u =>
    { u with sec := u.sec.setSlot p fun k => { k with ul := (count + 1) % countMod } }
  | .secureDl _ p _ _, u =>
    { u with sec := u.sec.setSlot p fun k => { k with dl := (k.dl + 1) % countMod } }
  | .migrate src _, u => { u with sec := (s.ue src).sec.migrate u.sec }

variable {c : Cmd}

/-- The context a command is about is changed by its effect. -/
theorem exec_ue_self (hon : c.On r s) : (s.exec c).ue r = c.effect s (s.ue r) := by
  cases c
  case create =>
    subst hon
    simp [AmfState.exec, AmfState.create, Cmd.effect]
  case take | resetTo =>
    obtain ⟨rfl, -⟩ := hon
    simp [exec, effect]
  case insert => rfl
  case unindex => rfl
  case emit => rfl
  all_goals
    simp only [Cmd.On] at hon
    subst hon
    simp [exec, updSec, effect]

variable {q : Ref} {β : Type}

/-- Commands about `r` leave the other contexts alone. -/
theorem exec_ue_of_ne (hon : c.On r s) (hq : q ≠ r) : (s.exec c).ue q = s.ue q := by
  cases c
  case insert => rfl
  case unindex => rfl
  case emit => rfl
  case take | resetTo =>
    obtain ⟨rfl, -⟩ := hon
    simp [AmfState.exec, AmfState.upd_ue_of_ne _ hq]
  all_goals
    simp only [Cmd.On] at hon
    subst hon
    simp [AmfState.exec, AmfState.updSec, AmfState.upd_ue_of_ne _ hq, AmfState.create,
      Function.update_of_ne hq]

theorem Acts.ue_of_ne (h : Acts r L s t) (hq : q ≠ r) : t.ue q = s.ue q := by
  refine h.keeps (fun s' => s'.ue q = s.ue q) (fun s' c hon _ hs' => ?_) rfl
  rw [exec_ue_of_ne hon hq, hs']

/-- A part of the context that the effects of the kinds in `L` leave alone. -/
theorem Acts.frame (g : Ue → β) (hg : ∀ s c u, c.kind ∈ L → g (Cmd.effect s c u) = g u)
    (h : Acts r L s t) (q : Ref) :
    g (t.ue q) = g (s.ue q) := by
  by_cases hq : q = r
  · subst hq
    refine h.keeps (fun s' => g (s'.ue q) = g (s.ue q)) (fun s' c hon hk hs' => ?_) rfl
    rw [exec_ue_self hon, hg s' c _ hk, hs']
  · rw [h.ue_of_ne hq]

/-- Kinds other than these leave the SUPI alone. -/
theorem Acts.imsi_eq (h : Acts r L s t) (hL : L.all (· ∉ [.imsi, .create]) = true) (q : Ref) :
    (t.ue q).imsi = (s.ue q).imsi := by
  refine h.frame Ue.imsi (fun s c u hk => ?_) q
  have hc : c.kind ∉ [.imsi, .create] := by simpa using all_eq_true.1 hL _ hk
  cases c <;> first | rfl | (simp [effect]; done) | (simp [kind] at hc)

/-- The contexts allocated and the indexes. -/
def AmfState.registry (s : AmfState) :
    Nat × (Nat → Option Ref) × (GnbKey × Nat → Option Nat) × (Imsi → Option Nat) :=
  (s.nref, s.byAmfID, s.byRanKey, s.byIMSI)

/-- Kinds other than these leave the registry alone. -/
theorem Acts.registry_eq (h : Acts r L s t)
    (hL : L.all (· ∉ [.insert, .unindex, .create]) = true) : t.registry = s.registry := by
  refine h.keeps (fun s' => s'.registry = s.registry) (fun s' c _ hk hs' => ?_) rfl
  have hc : c.kind ∉ [.insert, .unindex, .create] := by simpa using all_eq_true.1 hL _ hk
  rw [← hs']
  cases c <;> first | rfl | (simp [kind] at hc)

/-! ## The log -/

/-- What a command logs. -/
def Cmd.logged (s : AmfState) : Cmd → List Obs
  | .challenge r av ngksi => [.challenged r av.kamf ngksi]
  | .rechallenge r ngksi => [.challenged r (s.ue r).sec.kamf ngksi]
  | .answer r => [.answered r]
  | .activate V r _ eea eia => [.activated r (deriveSlot V (s.ue r).sec.kamf eea eia).knasInt]
  | .promote r => [.promoted r]
  | .acceptUl r p count pdu => [.ulAccepted r ((s.ue r).sec.slot p).knasInt count pdu]
  | .secureDl r p plain pdu =>
    [.dlSecured r ((s.ue r).sec.slot p).knasInt ((s.ue r).sec.slot p).dl plain pdu]
  | .emit o => [o]
  | _ => []

theorem exec_log (c : Cmd) : (s.exec c).log = c.logged s ++ s.log := by
  cases c <;> rfl

/-- What a command logs is of its kind, and about the same context. -/
theorem Cmd.logged_on {o : Obs} (hon : c.On r s) (ho : o ∈ c.logged s) :
    o.On r s ∧ o.kind = c.kind := by
  cases c <;> simp only [logged, mem_singleton, not_mem_nil] at ho <;> subst ho <;>
    exact ⟨hon, rfl⟩

/-- A part of the log to which the kinds in `L` add nothing. -/
theorem Acts.log_frame (f : Obs → Option β) (hf : ∀ s o, o.On r s → o.kind ∈ L → f o = none)
    (h : Acts r L s t) :
    t.log.filterMap f = s.log.filterMap f := by
  refine h.keeps (fun s' => s'.log.filterMap f = s.log.filterMap f) (fun s' c hon hk hs => ?_) rfl
  have hnil : (c.logged s').filterMap f = [] := by
    refine filterMap_eq_nil_iff.2 fun o ho => ?_
    obtain ⟨hon', hkind⟩ := logged_on hon ho
    exact hf s' o hon' (hkind ▸ hk)
  rw [exec_log, filterMap_append, hnil, nil_append, hs]

/-- The kinds that log something. -/
abbrev logKinds : List Kind :=
  [.challenge, .answer, .activate, .promote, .ul, .dl, .send, .smf, .note, .reuse, .abort]

theorem Acts.log_eq (h : Acts r L s t) (hL : L.all (· ∉ logKinds) = true) : t.log = s.log := by
  refine h.keeps (fun s' => s'.log = s.log) (fun s' c hon hk hs => ?_) rfl
  have hc : c.kind ∉ logKinds := by simpa using all_eq_true.1 hL _ hk
  have hnil : c.logged s' = [] := by
    refine eq_nil_iff_forall_not_mem.2 fun o ho => hc ?_
    rw [← (logged_on hon ho).2]
    cases o <;> simp [Obs.kind]
  rw [exec_log, hnil, nil_append, hs]

end MmtCore.Amf
