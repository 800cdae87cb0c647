import MmtCore.Amf.Gmm.Ulnas
import MmtCore.Lib.Reach

/-!
# 5GSM transactions over runs

The transactions of the UEs are numbered; `ue n` is the request of number `n`, which the UE may
send any number of times.  A transaction runs once and has one reply, and a new one is neither a
collision nor answered with the reply of an old one, as long as a request finds its PTI free, or
without a response, before its procedure has run, and its own transaction with a response after.
-/

namespace MmtCore.Amf

open Lib Smf Gmm Function SmState Tracker

/-- The state of the network, and what has become of each transaction. -/
structure PtiSystem where
  sm : SmState
  /-- Whose transaction the tracker holds under a PTI. -/
  owner : Bytes → UInt8 → Option Nat
  seen : Nat → Bool
  ran : Nat → Nat
  /-- The first reply to a transaction. -/
  reply : Nat → Option Bytes

inductive PtiEvent where
  /-- The request of a transaction arrives, for the first time or again. -/
  | request (n : Nat) (env : SmEnv)
  | complete (imsi : Bytes) (pti : UInt8)
  | forgetUE (imsi : Bytes)
  | releaseSession (imsi : Bytes) (psi : UInt8)
deriving DecidableEq

namespace PtiSystem

variable (ue : Nat → SmRequest) (s : PtiSystem)

/-- What becomes of the request of a transaction. -/
def handled (n : Nat) (env : SmEnv) : Handled :=
  (s.sm.handleN1SMPayload (ue n) env).2

/-- The transaction under a PTI is that of the last request that was taken to a procedure. -/
def ownerAfter (n : Nat) (h : Handled) : Bytes → UInt8 → Option Nat := fun i p =>
  if (i = (ue n).imsi ∧ p = (ue n).pti) ∧ (h.verdict = .ran ∨ h.verdict = .skipped) then some n
  else s.owner i p

def step : PtiEvent → PtiSystem
  | .request n env =>
    let (sm, h) := s.sm.handleN1SMPayload (ue n) env
    { sm
      owner := s.ownerAfter ue n h
      seen := update s.seen n true
      ran := if h.verdict = .ran then update s.ran n (s.ran n + 1) else s.ran
      reply := update s.reply n ((s.reply n).or h.reply) }
  | .complete imsi pti =>
    { s with
      sm := s.sm.onComplete imsi pti
      owner := fun i p => if i = imsi ∧ p = pti then none else s.owner i p }
  | .forgetUE imsi =>
    { s with
      sm := s.sm.forgetUE imsi
      owner := fun i p => if i = imsi then none else s.owner i p }
  | .releaseSession imsi psi => { s with sm := s.sm.releaseSession imsi psi }

def start : PtiSystem where
  sm := { tracker := ⟨fun _ _ => none⟩, sessions := fun _ _ => false }
  owner := fun _ _ => none
  seen := fun _ => false
  ran := fun _ => 0
  reply := fun _ => none

/-! ## The property -/

/-- No transaction runs twice, an answer is the reply of its transaction, and the request of a new
transaction is neither a collision nor a retransmission of an old one.  Requests are handled one
after the other, so every transaction before has ended. -/
structure RunsOnce (ev : PtiEvent) : Prop where
  once : ∀ n, (s.step ue ev).ran n ≤ 1
  answer : ∀ n env, ev = .request n env → (s.handled ue n env).sent = true →
    (s.handled ue n env).reply = (s.step ue ev).reply n
  reuse : ∀ n env, ev = .request n env → s.seen n = false →
    (s.handled ue n env).verdict ≠ .collision ∧ (s.handled ue n env).verdict ≠ .replayed

/-! ## The condition -/

/-- The transaction that a request starts. -/
def fresh (req : SmRequest) : Transaction where
  pduSessionID := req.pduSessionID
  kind := req.kind.procedure
  response := []

/-- The message has an IE out of range, or its PTI is not one. -/
def Void (req : SmRequest) : Bool :=
  req.pti = 0 || req.pti = 255 ||
    match req.kind with
    | .establishment pduSessionType sscMode =>
      (SmState.establishmentError pduSessionType sscMode).isSome
    | _ => false

/-- The request of a transaction that has not run finds its PTI free, or the same procedure without
a response; that of one that has run finds its own transaction with a response. -/
def Finds : PtiEvent → Prop
  | .request n _ => Void (ue n) = false →
    if s.ran n = 0 then
      s.sm.tracker.byUE (ue n).imsi (ue n).pti = none ∨
        s.sm.tracker.byUE (ue n).imsi (ue n).pti = some (fresh (ue n))
    else
      s.owner (ue n).imsi (ue n).pti = some n ∧
        (s.sm.tracker.byUE (ue n).imsi (ue n).pti).any fun txn => txn.response ≠ []
  | _ => True

instance (ev : PtiEvent) : Decidable (s.Finds ue ev) :=
  match ev with
  | .request n _ => inferInstanceAs (Decidable (_ = _ → if s.ran n = 0 then _ = _ ∨ _ = _ else
      _ = _ ∧ _ = true))
  | .complete _ _ | .forgetUE _ | .releaseSession _ _ => inferInstanceAs (Decidable True)

/-! ## What becomes of a request -/

section

variable {ue s} {req : SmRequest} {env : SmEnv} {sm : SmState}

/-- A procedure runs, or is not started; its reply is the response of the transaction. -/
structure Runs (req : SmRequest) (procedure : SmState → SmState × Handled) : Prop where
  verdict : ∀ sm, (procedure sm).2.verdict = .ran ∨
    (procedure sm).2.verdict = .skipped ∧ (procedure sm).2.reply = none
  tracker : ∀ sm, (procedure sm).1.tracker = match (procedure sm).2.reply with
    | some b => sm.tracker.complete req.imsi req.pti b
    | none => sm.tracker

theorem establishmentProcedure_runs : Runs req (SmState.establishmentProcedure req env) := by
  constructor
  · intro sm
    unfold establishmentProcedure
    split
    · exact .inr ⟨rfl, rfl⟩
    · grind
  · intro sm
    unfold establishmentProcedure
    split
    · rfl
    · split
      · rfl
      · rfl
      · split <;> rfl
      · split <;> rfl

theorem releaseProcedure_runs : Runs req (SmState.releaseProcedure req env) := by
  constructor
  · intro sm
    unfold releaseProcedure
    dsimp only
    split <;> exact .inl rfl
  · intro sm
    unfold releaseProcedure
    dsimp only
    split <;> rfl

theorem modificationProcedure_runs : Runs req (SmState.modificationProcedure req env) := by
  constructor
  · intro sm
    unfold modificationProcedure
    split <;> exact .inl rfl
  · intro sm
    unfold modificationProcedure
    split <;> rfl

/-- Every request that is not void goes through the transaction of its PTI. -/
theorem handle_eq (hv : Void req = false) : ∃ canReplay procedure, Runs req procedure ∧
    sm.handleN1SMPayload req env = sm.dedup req env canReplay procedure := by
  unfold SmState.handleN1SMPayload
  split
  · case h_1 ty ssc hk =>
    refine ⟨sm.sessions req.imsi req.pduSessionID, establishmentProcedure req env,
      establishmentProcedure_runs, ?_⟩
    unfold handleEstablishment
    unfold Void at hv
    rw [hk] at hv
    cases he : establishmentError ty ssc with
    | none => rfl
    | some cause => simp [he] at hv
  · exact ⟨_, _, modificationProcedure_runs, rfl⟩
  · exact ⟨_, _, releaseProcedure_runs, rfl⟩

variable {canReplay : Bool} {procedure : SmState → SmState × Handled}

theorem dedup_void (hp : req.pti = 0 ∨ req.pti = 255) :
    sm.dedup req env canReplay procedure = (sm, ⟨.invalidPTI, none, false⟩) := by
  unfold SmState.dedup Tracker.start
  rw [if_pos hp]

/-- A void request changes nothing, and gets the same reply each time. -/
theorem handle_void (hv : Void req = true) : ∃ verdict reply,
    (verdict = .malformed ∨ verdict = .invalidPTI) ∧ ∀ (sm : SmState) env,
      (sm.handleN1SMPayload req env).1 = sm ∧
        (sm.handleN1SMPayload req env).2.verdict = verdict ∧
        (sm.handleN1SMPayload req env).2.reply = reply := by
  have hpti : ∀ {b : Bool}, ((decide (req.pti = 0) || decide (req.pti = 255) || b) = true) →
      b = false → req.pti = 0 ∨ req.pti = 255 := by
    intro b h hb
    rw [hb] at h
    simpa using h
  unfold Void at hv
  cases hk : req.kind with
  | establishment ty ssc =>
    rw [hk] at hv
    cases he : establishmentError ty ssc with
    | some cause =>
      refine ⟨.malformed, some (reject req.kind.rejectType req.pduSessionID cause req.pti), .inl rfl,
        fun sm env => ?_⟩
      unfold SmState.handleN1SMPayload handleEstablishment
      rw [hk]
      dsimp only
      rw [he]
      exact ⟨rfl, rfl, rfl⟩
    | none =>
      refine ⟨.invalidPTI, none, .inr rfl, fun sm env => ?_⟩
      unfold SmState.handleN1SMPayload handleEstablishment
      rw [hk]
      dsimp only
      rw [he]
      rw [dedup_void (hpti hv (by simp [he]))]
      exact ⟨rfl, rfl, rfl⟩
  | modification =>
    refine ⟨.invalidPTI, none, .inr rfl, fun sm env => ?_⟩
    unfold SmState.handleN1SMPayload handleModification
    rw [hk] at hv ⊢
    rw [dedup_void (hpti hv rfl)]
    exact ⟨rfl, rfl, rfl⟩
  | release =>
    refine ⟨.invalidPTI, none, .inr rfl, fun sm env => ?_⟩
    unfold SmState.handleN1SMPayload handleRelease
    rw [hk] at hv ⊢
    rw [dedup_void (hpti hv rfl)]
    exact ⟨rfl, rfl, rfl⟩

theorem pti_valid (hv : Void req = false) : ¬ (req.pti = 0 ∨ req.pti = 255) := by
  unfold Void at hv
  simp only [Bool.or_eq_false_iff, decide_eq_false_iff_not] at hv
  exact not_or.2 hv.1

theorem dedup_free (hv : Void req = false) (h : sm.tracker.byUE req.imsi req.pti = none) :
    sm.dedup req env canReplay procedure =
      procedure { sm with tracker := sm.tracker.set req.imsi req.pti (some (fresh req)) } := by
  unfold SmState.dedup Tracker.start
  rw [if_neg (pti_valid hv), h]
  rfl

theorem dedup_own (hv : Void req = false) {response : Bytes}
    (h : sm.tracker.byUE req.imsi req.pti = some { fresh req with response }) :
    sm.dedup req env canReplay procedure =
      if response ≠ [] then
        (sm, ⟨.replayed, some response, env.gnb && canReplay && env.sendOK⟩)
      else procedure sm := by
  unfold SmState.dedup Tracker.start
  rw [if_neg (pti_valid hv), h]
  dsimp only [fresh]
  rw [if_pos ⟨rfl, rfl⟩]
  simp only [true_and]

end

/-! ## The invariant -/

structure Inv : Prop where
  owned : ∀ i p n, s.owner i p = some n → ((ue n).imsi = i ∧ (ue n).pti = p) ∧
    Void (ue n) = false ∧ s.seen n = true ∧
    s.sm.tracker.byUE i p = some { fresh (ue n) with response := (s.reply n).getD [] }
  free : ∀ i p, s.owner i p = none → s.sm.tracker.byUE i p = none
  once : ∀ n, s.ran n ≤ 1
  unseen : ∀ n, s.seen n = false → s.ran n = 0 ∧ s.reply n = none
  idle : ∀ n, Void (ue n) = false → s.ran n = 0 → s.reply n = none
  void : ∀ n, Void (ue n) = true → s.seen n = true → ∀ (sm : SmState) env,
    (sm.handleN1SMPayload (ue n) env).2.reply = s.reply n

variable {ue s}

theorem inv_start : start.Inv ue where
  owned := by intro i p n h; cases h
  free := by intro i p _; rfl
  once := by intro n; exact Nat.zero_le 1
  unseen := by intro n _; exact ⟨rfl, rfl⟩
  idle := by intro n _ _; rfl
  void := by intro n _ h; cases h

/-- A step that only frees PTIs. -/
theorem Inv.frees (h : s.Inv ue) {sm : SmState} {owner : Bytes → UInt8 → Option Nat}
    (ho : ∀ i p, owner i p = s.owner i p ∧ sm.tracker.byUE i p = s.sm.tracker.byUE i p ∨
      owner i p = none ∧ sm.tracker.byUE i p = none) :
    Inv ue { s with sm, owner } where
  owned i p n hn := by
    rcases ho i p with ⟨heq, htr⟩ | ⟨hnone, -⟩
    · dsimp only at hn ⊢
      rw [heq] at hn
      rw [htr]
      exact h.owned i p n hn
    · dsimp only at hn
      rw [hnone] at hn
      cases hn
  free i p hn := by
    rcases ho i p with ⟨heq, htr⟩ | ⟨-, htr⟩
    · dsimp only at hn ⊢
      rw [heq] at hn
      rw [htr]
      exact h.free i p hn
    · exact htr
  once := h.once
  unseen := h.unseen
  idle := h.idle
  void := h.void

/-! ### Requests -/

section

variable {n : Nat} {env : SmEnv}

theorem ownerAfter_same {h : Handled} (hran : h.verdict ≠ .ran) (hskip : h.verdict ≠ .skipped) :
    s.ownerAfter ue n h = s.owner := by
  grind [ownerAfter]

theorem Inv.request_void (h : s.Inv ue) (hv : Void (ue n) = true) :
    s.RunsOnce ue (.request n env) ∧ (s.step ue (.request n env)).Inv ue := by
  obtain ⟨verdict, reply, hverdict, hsame⟩ := handle_void hv
  obtain ⟨hsm, hver, hrep⟩ := hsame s.sm env
  have hnot : (verdict ≠ .ran ∧ verdict ≠ .skipped) ∧ verdict ≠ .collision ∧
      verdict ≠ .replayed := by
    rcases hverdict with rfl | rfl <;> decide
  have hreply : (s.reply n).or reply = reply := by
    cases hseen : s.seen n with
    | false => rw [(h.unseen n hseen).2]; rfl
    | true =>
      rw [← h.void n hv hseen s.sm env, hrep]
      cases reply <;> rfl
  have hstep : s.step ue (.request n env) =
      { s with seen := update s.seen n true, reply := update s.reply n reply } := by
    unfold step
    dsimp only
    rw [ownerAfter_same (hver ▸ hnot.1.1) (hver ▸ hnot.1.2), hsm, hver, if_neg hnot.1.1, hrep,
      hreply]
  have hne : ∀ {m}, Void (ue m) = false → m ≠ n := by
    rintro m hm rfl
    rw [hv] at hm
    cases hm
  constructor
  · refine ⟨fun m => ?_, fun m env' heq _ => ?_, fun m env' heq _ => ?_⟩
    · rw [hstep]
      exact h.once m
    · cases heq
      rw [hstep]
      dsimp only
      rw [update_self]
      exact hrep
    · cases heq
      unfold handled
      rw [hver]
      exact hnot.2
  · rw [hstep]
    refine ⟨fun i p m hm => ?_, h.free, h.once, fun m hm => ?_, fun m hm hran => ?_,
      fun m hm hseen sm env' => ?_⟩
    · obtain ⟨hkey, hmv, hseen, htr⟩ := h.owned i p m hm
      dsimp only
      rw [update_of_ne (hne hmv), update_of_ne (hne hmv)]
      exact ⟨hkey, hmv, hseen, htr⟩
    · by_cases hmn : m = n
      · dsimp only at hm
        rw [hmn, update_self] at hm
        cases hm
      · dsimp only at hm ⊢
        rw [update_of_ne hmn] at hm ⊢
        exact h.unseen m hm
    · dsimp only
      rw [update_of_ne (hne hm)]
      exact h.idle m hm hran
    · dsimp only at hseen ⊢
      by_cases hmn : m = n
      · subst hmn
        rw [update_self]
        exact (hsame sm env').2.2
      · rw [update_of_ne hmn] at hseen ⊢
        exact h.void m hm hseen sm env'

/-- A retransmission that has a response changes nothing. -/
theorem Inv.request_replayed (h : s.Inv ue) (hv : Void (ue n) = false)
    (howner : s.owner (ue n).imsi (ue n).pti = some n)
    (hresp : (s.sm.tracker.byUE (ue n).imsi (ue n).pti).any fun txn => txn.response ≠ []) :
    s.RunsOnce ue (.request n env) ∧ (s.step ue (.request n env)).Inv ue := by
  obtain ⟨canReplay, procedure, -, heq⟩ := @handle_eq _ env s.sm hv
  obtain ⟨-, -, hseen, htr⟩ := h.owned _ _ n howner
  rw [htr] at hresp
  have hne : (s.reply n).getD [] ≠ [] := by simpa using hresp
  obtain ⟨resp, hreply⟩ : ∃ resp, s.reply n = some resp := by
    cases hr : s.reply n with
    | none => rw [hr] at hne; exact absurd rfl hne
    | some resp => exact ⟨resp, rfl⟩
  rw [dedup_own hv htr, if_pos hne, hreply, Option.getD_some] at heq
  have hstep : s.step ue (.request n env) = s := by
    have hsame : (s.reply n).or (some resp) = s.reply n := by rw [hreply]; rfl
    unfold step
    dsimp only
    rw [heq]
    dsimp only
    rw [if_neg (by decide), ownerAfter_same (by simp) (by simp), hsame,
      update_eq_self, ← hseen, update_eq_self]
  rw [hstep]
  refine ⟨⟨fun m => ?_, fun m env' heq' _ => ?_, fun m env' heq' hnew => ?_⟩, h⟩
  · rw [hstep]
    exact h.once m
  · cases heq'
    rw [hstep, hreply]
    unfold handled
    rw [heq]
  · cases heq'
    rw [hseen] at hnew
    cases hnew

variable {procedure : SmState → SmState × Handled} {sm : SmState}

/-- The transaction that a procedure leaves under the PTI of its request. -/
theorem Runs.byUE {req : SmRequest} (hp : Runs req procedure)
    (hsm : sm.tracker.byUE req.imsi req.pti = some (fresh req)) (i : Bytes) (p : UInt8) :
    (procedure sm).1.tracker.byUE i p =
      if i = req.imsi ∧ p = req.pti then
        some { fresh req with response := (procedure sm).2.reply.getD [] }
      else sm.tracker.byUE i p := by
  rw [hp.tracker sm]
  split
  · case h_1 b hb =>
    unfold Tracker.complete
    rw [set_byUE, hsm, hb]
    rfl
  · case h_2 hb =>
    rw [hb]
    split
    · case isTrue hkey => rw [hkey.1, hkey.2, hsm]; rfl
    · rfl

/-- The procedure of a transaction that has not run. -/
theorem Inv.request_run (h : s.Inv ue) (hv : Void (ue n) = false) (hran : s.ran n = 0)
    (hsm : sm.tracker.byUE (ue n).imsi (ue n).pti = some (fresh (ue n)))
    (hother : ∀ i p, ¬ (i = (ue n).imsi ∧ p = (ue n).pti) →
      sm.tracker.byUE i p = s.sm.tracker.byUE i p) (hp : Runs (ue n) procedure)
    (heq : s.sm.handleN1SMPayload (ue n) env = procedure sm) :
    s.RunsOnce ue (.request n env) ∧ (s.step ue (.request n env)).Inv ue := by
  have hbyUE := hp.byUE hsm
  have hverdict := hp.verdict sm
  revert heq hbyUE hverdict
  generalize procedure sm = r
  obtain ⟨sm', hd⟩ := r
  intro heq hbyUE hverdict
  have hnew : s.ownerAfter ue n hd = fun i p =>
      if i = (ue n).imsi ∧ p = (ue n).pti then some n else s.owner i p := by
    funext i p
    unfold ownerAfter
    simp only [hverdict.imp_right And.left, and_true]
  have hstep : s.step ue (.request n env) =
      { sm := sm'
        owner := fun i p => if i = (ue n).imsi ∧ p = (ue n).pti then some n else s.owner i p
        seen := update s.seen n true
        ran := if hd.verdict = .ran then update s.ran n 1 else s.ran
        reply := update s.reply n hd.reply } := by
    unfold step
    dsimp only
    rw [heq]
    dsimp only
    rw [hnew, hran, h.idle n hv hran]
    rfl
  have honce : ∀ m, (s.step ue (.request n env)).ran m ≤ 1 := by
    intro m
    rw [hstep]
    dsimp only
    split
    · by_cases hmn : m = n
      · exact Nat.le_of_eq ((congrArg _ hmn).trans (update_self n 1 s.ran))
      · rw [update_of_ne hmn]
        exact h.once m
    · exact h.once m
  constructor
  · refine ⟨honce, fun m env' heq' _ => ?_, fun m env' heq' _ => ?_⟩
    · simp_all [handled]
    · grind [handled]
  · have hinv := honce
    rw [hstep] at hinv ⊢
    refine ⟨fun i p m hm => ?_, fun i p hm => ?_, hinv, fun m hm => ?_, fun m hm hran' => ?_,
      fun m hm hseen sm₁ env' => ?_⟩
    · dsimp only at hm ⊢
      rw [hbyUE]
      by_cases hkey : i = (ue n).imsi ∧ p = (ue n).pti
      · simp_all
      · rw [if_neg hkey] at hm ⊢
        obtain ⟨hk, hmv, hseen, htr⟩ := h.owned i p m hm
        have hmn : m ≠ n := by
          rintro rfl
          exact hkey ⟨hk.1.symm, hk.2.symm⟩
        rw [update_of_ne hmn, update_of_ne hmn, hother i p hkey]
        exact ⟨hk, hmv, hseen, htr⟩
    · dsimp only at hm ⊢
      rw [hbyUE]
      by_cases hkey : i = (ue n).imsi ∧ p = (ue n).pti
      · rw [if_pos hkey] at hm
        cases hm
      · rw [if_neg hkey] at hm ⊢
        rw [hother i p hkey]
        exact h.free i p hm
    · dsimp only at hm ⊢
      by_cases hmn : m = n
      · rw [hmn, update_self] at hm
        cases hm
      · rw [update_of_ne hmn] at hm ⊢
        split
        · rw [update_of_ne hmn]
          exact h.unseen m hm
        · exact h.unseen m hm
    · dsimp only at hran' ⊢
      by_cases hmn : m = n
      · grind
      · rw [update_of_ne hmn]
        refine h.idle m hm ?_
        split at hran'
        · rwa [update_of_ne hmn] at hran'
        · exact hran'
    · have hmn : m ≠ n := by
        rintro rfl
        rw [hv] at hm
        cases hm
      dsimp only at hseen ⊢
      rw [update_of_ne hmn] at hseen ⊢
      exact h.void m hm hseen sm₁ env'

theorem Inv.request (h : s.Inv ue) (hd : s.Finds ue (.request n env)) :
    s.RunsOnce ue (.request n env) ∧ (s.step ue (.request n env)).Inv ue := by
  cases hv : Void (ue n) with
  | true => exact h.request_void hv
  | false =>
  have hd := hd hv
  obtain ⟨canReplay, procedure, hp, heq⟩ := @handle_eq _ env s.sm hv
  by_cases hran : s.ran n = 0
  · rw [if_pos hran] at hd
    rcases hd with hfree | hsame
    · rw [dedup_free hv hfree] at heq
      refine h.request_run hv hran ?_ (fun i p hkey => ?_) hp heq
      · rw [set_byUE, if_pos ⟨rfl, rfl⟩]
      · rw [set_byUE, if_neg hkey]
    · rw [dedup_own hv hsame, if_neg (by simp)] at heq
      exact h.request_run hv hran hsame (fun i p _ => rfl) hp heq
  · rw [if_neg hran] at hd
    exact h.request_replayed hv hd.1 hd.2

end

theorem Inv.step (h : s.Inv ue) {ev : PtiEvent} (hd : s.Finds ue ev) :
    s.RunsOnce ue ev ∧ (s.step ue ev).Inv ue := by
  have hquiet : ∀ {ev : PtiEvent}, (s.step ue ev).Inv ue → (∀ n env, ev ≠ .request n env) →
      s.RunsOnce ue ev := fun hinv hne =>
    ⟨hinv.once, fun n env heq => absurd heq (hne n env), fun n env heq => absurd heq (hne n env)⟩
  cases ev with
  | request n env => exact h.request hd
  | complete imsi pti =>
    have hinv : (s.step ue (.complete imsi pti)).Inv ue := by
      refine h.frees fun i p => ?_
      by_cases hkey : i = imsi ∧ p = pti
      · exact .inr ⟨if_pos hkey, if_pos hkey⟩
      · exact .inl ⟨if_neg hkey, if_neg hkey⟩
    exact ⟨hquiet hinv (by simp), hinv⟩
  | forgetUE imsi =>
    have hinv : (s.step ue (.forgetUE imsi)).Inv ue := by
      refine h.frees fun i p => ?_
      by_cases hkey : i = imsi
      · exact .inr ⟨if_pos hkey, if_pos hkey⟩
      · exact .inl ⟨if_neg hkey, if_neg hkey⟩
    exact ⟨hquiet hinv (by simp), hinv⟩
  | releaseSession imsi psi =>
    have hinv : (s.step ue (.releaseSession imsi psi)).Inv ue :=
      h.frees fun i p => .inl ⟨rfl, rfl⟩
    exact ⟨hquiet hinv (by simp), hinv⟩

/-! ## Main results -/

/-- As long as no request finds another transaction, or its own without the reply, every transaction
runs once. -/
theorem transactions_run_once (ue : Nat → SmRequest) (es : List PtiEvent)
    (h : Meets (step ue) (Finds ue) start es) : Meets (step ue) (RunsOnce ue) start es :=
  h.imp (fun _ _ hinv hd => hinv.step hd) inv_start

/-! ### Two runs -/

/-- Everything is there, and every procedure succeeds. -/
def allGood : SmEnv where
  gnb := true
  connected := true
  gnbAfter := true
  sendOK := true
  establish := .accepted [0x2E, 5, 1, 194]
  modify := some [0x2E, 5, 2, 203]
  release := some [0x2E, 5, 2, 211]

def supi : Bytes := [0x30, 0x30, 0x31]

/-- A session is established and modified twice. -/
def modifiedTwice : Nat → SmRequest
  | 0 => ⟨supi, 1, 5, .establishment (some 1) none⟩
  | _ => ⟨supi, 2, 5, .modification⟩

/-- Requests are repeated before the UE completes, and the PTI of the first modification serves for
the second. -/
def withRepeats : List PtiEvent :=
  [.request 0 allGood, .request 0 allGood, .request 1 allGood, .request 1 allGood,
   .complete supi 2, .request 2 allGood]

theorem transactions_run_once_withRepeats :
    Meets (step modifiedTwice) (Finds modifiedTwice) start withRepeats ∧
    (∀ n ∈ [0, 1, 2], (run (step modifiedTwice) start withRepeats).ran n = 1) ∧
    Meets (step modifiedTwice) (RunsOnce modifiedTwice) start withRepeats := by
  have h : Meets (step modifiedTwice) (Finds modifiedTwice) start withRepeats := by
    refine ⟨?_, ?_, ?_, ?_, ?_, ?_, trivial⟩ <;> decide
  exact ⟨h, by decide, transactions_run_once modifiedTwice withRepeats h⟩

/-- A session is established and released, and another established under the PTI of the first. -/
def secondSession : Nat → SmRequest
  | 0 => ⟨supi, 1, 5, .establishment (some 1) none⟩
  | 1 => ⟨supi, 2, 5, .release⟩
  | _ => ⟨supi, 1, 6, .establishment (some 1) none⟩

def reusedPTI : List PtiEvent :=
  [.request 0 allGood, .request 1 allGood, .complete supi 2, .request 2 allGood]

theorem not_transactions_run_once :
    ¬ ∀ (ue : Nat → SmRequest) (es : List PtiEvent),
      Meets (step ue) (RunsOnce ue) start es := by
  intro h
  obtain ⟨-, -, -, hlast, -⟩ := h secondSession reusedPTI
  have hreuse := (hlast.reuse 2 allGood rfl (by decide)).1
  exact hreuse (by decide)

end PtiSystem

end MmtCore.Amf
