import MmtCore.Udm.AuthCache

/-!
# Sequence numbers over runs

Between two starts of the process the vectors of a subscriber carry larger and larger sequence
numbers, as long as each update finds the number its call has read and no reload brings back one
that is used up.  After a start they go on from what was persisted.
-/

namespace MmtCore.Udm

open MmtCore.Lib List Option AuthStore

namespace AuthStore

/-- The vectors of a subscriber in `l`, the latest first, carry larger and larger SQNs. -/
def Growing (l : List AuthVector) : Prop :=
  l.Pairwise fun v w => v.imsi = w.imsi → w.sqn < v.sqn

/-- The SQN is above those of all the vectors of the subscriber in `l`. -/
def Above (l : List AuthVector) (imsi : Imsi) (sqn : Int) : Prop :=
  ∀ v ∈ l, v.imsi = imsi → (v.sqn.toNat : Int) < sqn

/-- The SQN is not below the one that the start of the process has found. -/
def FromStart (started : AssocMap Imsi UEAuthData) (imsi : Imsi) (sqn : Int) : Prop :=
  ∀ row ∈ started.lookup imsi, row.sqn ≤ sqn
  deriving Decidable

variable (u : AuthStore)

/-- What the vectors issued since the start carry: larger and larger SQNs, none below the one
persisted at the start; and the cache is past all of them. -/
structure InOrder : Prop where
  growing : Growing u.issued
  fromStart : ∀ v ∈ u.issued, FromStart u.started v.imsi v.sqn.toNat
  cached : ∀ imsi, ∀ ad ∈ u.authByIMSI.lookup imsi, Above u.issued imsi ad.sqn

/-- A re-synchronisation does not lower the SQN of the cache. -/
def NotLowered (E : BlockCipher) (byMSISDN : String → Option Imsi) : UdmEvent → Prop
  | .proceed (.resync imsi creds auts randBuf) =>
    ∀ ad ∈ u.authByIMSI.lookup imsi, ∀ ad' ∈ (u.step E byMSISDN
      (.proceed (.resync imsi creds auts randBuf))).authByIMSI.lookup imsi, ad.sqn ≤ ad'.sqn
  | _ => True

/-! ## The condition -/

/-- The SQN is one that the subscriber can go on from. -/
def Usable (imsi : Imsi) (sqn : Int) : Prop :=
  Above u.issued imsi sqn ∧ FromStart u.started imsi sqn

/-- A call finds the SQN as it has read it, below the limit, and a reload brings a usable one. -/
def Undisturbed : AuthCall → Prop
  | .generate imsi creds _ =>
    (u.authByIMSI.lookup imsi).map (·.sqn) = some creds.sqn ∧ 0 ≤ creds.sqn ∧
      creds.sqn + 32 < 2 ^ 48
  | .resync imsi creds _ _ => ∀ ad ∈ u.authByIMSI.lookup imsi, ad.sqn = creds.sqn
  | .reload imsi row => ∀ ad ∈ row, u.Usable imsi ad.sqn
  | .load (_ :: _) _ => True
  | .load [] rows => ∀ e ∈ rows.entries, u.Usable e.1 e.2.sqn

def Keeps : UdmEvent → Prop
  | .proceed call => call ∈ u.inFlight → u.Undisturbed call
  | _ => True

instance (l : List AuthVector) : Decidable (Growing l) :=
  inferInstanceAs (Decidable (l.Pairwise _))

instance (l : List AuthVector) (imsi : Imsi) (sqn : Int) : Decidable (Above l imsi sqn) :=
  inferInstanceAs (Decidable (∀ v ∈ l, v.imsi = imsi → (v.sqn.toNat : Int) < sqn))

instance (imsi : Imsi) (sqn : Int) : Decidable (u.Usable imsi sqn) :=
  inferInstanceAs (Decidable (_ ∧ _))

instance (call : AuthCall) : Decidable (u.Undisturbed call) :=
  match call with
  | .generate .. => inferInstanceAs (Decidable (_ = some _ ∧ _ ≤ _ ∧ _ < _))
  | .resync imsi .. => inferInstanceAs (Decidable (∀ ad ∈ u.authByIMSI.lookup imsi, _ = _))
  | .reload imsi row => inferInstanceAs (Decidable (∀ ad ∈ row, u.Usable imsi _))
  | .load (_ :: _) _ => inferInstanceAs (Decidable True)
  | .load [] rows => inferInstanceAs (Decidable (∀ e ∈ rows.entries, u.Usable _ _))

instance (ev : UdmEvent) : Decidable (u.Keeps ev) :=
  match ev with
  | .proceed call => inferInstanceAs (Decidable (call ∈ u.inFlight → u.Undisturbed call))
  | .generateAV .. | .realGenerateAV .. | .updateSQNOnSyncFailure .. | .reloadAuth ..
  | .loadCache | .flushOnce | .persist .. | .provision .. | .dropAuth .. | .restart =>
    inferInstanceAs (Decidable True)

/-! ## The invariant -/

/-- The vectors are in order, and the cache is not behind the start. -/
structure Inv : Prop where
  order : u.InOrder
  cachedFromStart : ∀ imsi, ∀ ad ∈ u.authByIMSI.lookup imsi, FromStart u.started imsi ad.sqn

variable {u} {v : AuthStore}

/-- The part of the state that the invariant is about. -/
theorem Inv.congr (h : u.Inv) (hissued : v.issued = u.issued) (hstarted : v.started = u.started)
    (hcache : ∀ imsi, ∀ ad ∈ v.authByIMSI.lookup imsi,
      u.Usable imsi ad.sqn ∨ ad ∈ u.authByIMSI.lookup imsi) : v.Inv := by
  have hall : ∀ imsi, ∀ ad ∈ v.authByIMSI.lookup imsi, u.Usable imsi ad.sqn := by
    intro imsi ad had
    rcases hcache imsi ad had with husable | hold
    · exact husable
    · exact ⟨h.order.cached imsi ad hold, h.cachedFromStart imsi ad hold⟩
  refine ⟨⟨?_, ?_, ?_⟩, ?_⟩
  · rw [hissued]
    exact h.order.growing
  · rw [hissued, hstarted]
    exact h.order.fromStart
  · rw [hissued]
    exact fun imsi ad had => (hall imsi ad had).1
  · rw [hstarted]
    exact fun imsi ad had => (hall imsi ad had).2

theorem Inv.of_eq (h : u.Inv) (hissued : v.issued = u.issued) (hstarted : v.started = u.started)
    (hcache : v.authByIMSI = u.authByIMSI) : v.Inv :=
  h.congr hissued hstarted fun imsi ad had => .inr (by rwa [hcache] at had)

theorem Inv.start (db : AssocMap Imsi UEAuthData) (before : List AuthVector) :
    Inv ⟨db, db, [], [], [], [], before, db⟩ := by
  refine ⟨⟨List.Pairwise.nil, fun v hv => absurd hv not_mem_nil, fun imsi ad _ v hv =>
    absurd hv not_mem_nil⟩, fun imsi ad had row hrow => ?_⟩
  simp_all

/-! ## The cache -/

variable {imsi : Imsi} {newSQN : Int} {ad : UEAuthData} {sqn : Int} {creds : UEAuthData}
  {ev : UdmEvent}

theorem mem_bumpSQN {imsi' : Imsi} (h : ad ∈ (u.bumpSQN imsi newSQN).authByIMSI.lookup imsi') :
    ad ∈ u.authByIMSI.lookup imsi' ∧ (imsi' = imsi → False) ∨ imsi' = imsi ∧ ad.sqn = newSQN ∧
      (u.authByIMSI.lookup imsi).isSome := by
  unfold bumpSQN at h
  split at h
  · grind
  · case h_2 old hold =>
    by_cases hi : imsi' = imsi
    · grind [AssocMap.lookup_assign]
    · simp_all

@[simp] theorem bumpSQN_issued (imsi : Imsi) (newSQN : Int) :
    (u.bumpSQN imsi newSQN).issued = u.issued := by
  unfold bumpSQN
  split <;> rfl

@[simp] theorem bumpSQN_started (imsi : Imsi) (newSQN : Int) :
    (u.bumpSQN imsi newSQN).started = u.started := by
  unfold bumpSQN
  split <;> rfl

theorem Usable.mono {a b : Int} (h : u.Usable imsi a) (hab : a ≤ b) : u.Usable imsi b :=
  ⟨fun v hv hi => (h.1 v hv hi).trans_le hab, fun row hrow => (h.2 row hrow).trans hab⟩

theorem Inv.usable (h : u.Inv) (had : ad ∈ u.authByIMSI.lookup imsi) : u.Usable imsi ad.sqn :=
  ⟨h.order.cached imsi ad had, h.cachedFromStart imsi ad had⟩

/-! ## Re-synchronisation -/

/-- The SQN of a re-synchronisation is not below the one it has read. -/
theorem le_nextSQN (E : BlockCipher) (creds : UEAuthData) (auts randBuf : List UInt8) :
    creds.sqn ≤ nextSQN E creds auts randBuf := by
  unfold nextSQN
  dsimp only
  split <;> omega

/-! ## Steps -/

/-- A bump to a usable SQN. -/
theorem Inv.bumpSQN (h : u.Inv) (hnew : (u.authByIMSI.lookup imsi).isSome → u.Usable imsi newSQN) :
    (u.bumpSQN imsi newSQN).Inv := by
  refine h.congr (bumpSQN_issued imsi newSQN) (bumpSQN_started imsi newSQN) fun imsi' ad had => ?_
  grind [mem_bumpSQN]

theorem sqnBytes_toNat (h0 : 0 ≤ sqn) (h : sqn < 2 ^ 48) : ((sqnBytes sqn).toNat : Int) = sqn := by
  unfold sqnBytes
  rw [BitVec.toNat_ofInt]
  omega

theorem incrementSQN_of_lt (h0 : 0 ≤ sqn) (h : sqn + 32 < 2 ^ 48) :
    incrementSQN sqn = sqn + 32 := by
  unfold incrementSQN
  omega

section

variable (h : u.Inv)
include h

/-- A vector is issued at the SQN of the cache, which moves on. -/
theorem Inv.generate (E : BlockCipher) (rand : BitVec 128)
    (hk : u.Undisturbed (.generate imsi creds rand)) :
    (u.advance E (.generate imsi creds rand)).Inv := by
  obtain ⟨hread, h0, hlimit⟩ := hk
  obtain ⟨c, hc, hcsqn⟩ := map_eq_some_iff.1 hread
  have husable : u.Usable imsi creds.sqn := by
    rw [← hcsqn]
    exact h.usable hc
  have hcarried : ((authVector E imsi creds rand).sqn.toNat : Int) = creds.sqn :=
    sqnBytes_toNat h0 (by omega)
  have hnext := incrementSQN_of_lt h0 hlimit
  have hbump : (u.bumpSQN imsi (incrementSQN creds.sqn)).Inv :=
    h.bumpSQN fun _ => husable.mono (by omega)
  refine ⟨⟨?_, ?_, ?_⟩, hbump.cachedFromStart⟩
  · refine pairwise_cons.2 ⟨fun w hw hi => ?_, ?_⟩
    · rw [bumpSQN_issued] at hw
      have hlt := husable.1 w hw hi.symm
      grind [BitVec.lt_def]
    · rw [bumpSQN_issued]
      exact h.order.growing
  · intro w hw
    change FromStart (u.bumpSQN imsi (incrementSQN creds.sqn)).started w.imsi w.sqn.toNat
    rw [bumpSQN_started]
    rcases mem_cons.1 hw with rfl | hw
    · rw [hcarried]
      exact husable.2
    · rw [bumpSQN_issued] at hw
      exact h.order.fromStart w hw
  · intro imsi' ad had w hw hi
    rcases mem_cons.1 hw with rfl | hw
    · rcases mem_bumpSQN had with ⟨-, hne⟩ | ⟨-, hsqn, -⟩
      · exact (hne hi.symm).elim
      · rw [hcarried, hsqn]
        omega
    · exact hbump.order.cached imsi' ad had w hw hi

theorem Inv.resync (E : BlockCipher) (auts randBuf : List UInt8)
    (hk : u.Undisturbed (.resync imsi creds auts randBuf)) :
    (u.advance E (.resync imsi creds auts randBuf)).Inv := by
  refine h.bumpSQN fun hsome => ?_
  obtain ⟨c, hc⟩ := isSome_iff_exists.1 hsome
  refine (h.usable hc).mono ?_
  rw [hk c hc]
  exact le_nextSQN E creds auts randBuf

theorem Inv.dropAuth (imsi : Imsi) : (u.dropAuth imsi).Inv := by
  refine h.congr rfl rfl fun imsi' ad had => .inr ?_
  have had' : (u.authByIMSI.erase imsi).lookup imsi' = some ad := had
  simp_all [AssocMap.lookup_erase_eq]

theorem Inv.setAuth {row : Option UEAuthData} (hk : u.Undisturbed (.reload imsi row)) :
    (u.setAuth imsi row).Inv := by
  cases row with
  | none => exact h.dropAuth imsi
  | some row =>
    refine h.congr rfl rfl fun imsi' ad had => ?_
    have had' : (u.authByIMSI.assign imsi row).lookup imsi' = some ad := had
    rw [AssocMap.lookup_assign_eq] at had'
    split at had'
    · case isTrue hi =>
      obtain rfl := some.inj had'
      rw [hi]
      exact .inl (hk row rfl)
    · exact .inr had'

theorem Inv.setCache {rows : AssocMap Imsi UEAuthData}
    (hk : u.Undisturbed (.load [] rows)) : (u.setCache rows).Inv :=
  h.congr rfl rfl fun imsi ad had =>
    .inl (hk ⟨imsi, ad⟩ (AssocMap.mem_entries_iff.2 had))

theorem Inv.advance (E : BlockCipher) {call : AuthCall}
    (hk : u.Undisturbed call) : (u.advance E call).Inv := by
  cases call with
  | generate imsi creds rand => exact h.generate E rand hk
  | resync imsi creds auts randBuf => exact h.resync E auts randBuf hk
  | reload imsi row => exact h.setAuth hk
  | load todo rows =>
    cases todo with
    | nil => exact h.setCache hk
    | cons imsi todo =>
      unfold AuthStore.advance
      dsimp only
      split <;> exact h.of_eq rfl rfl rfl

theorem Inv.withCreds (imsi : Imsi) (call : UEAuthData → AuthCall) :
    (u.withCreds imsi call).Inv := by
  unfold AuthStore.withCreds
  split
  · exact h
  · exact h.of_eq rfl rfl rfl

theorem Inv.persist (E : BlockCipher) (byMSISDN : String → Option Imsi) (imsi : Imsi)
    (sqn : Int) (ok : Bool) : (u.step E byMSISDN (.persist imsi sqn ok)).Inv := by
  unfold step
  dsimp only
  split
  · split
    · unfold updateUeAuthData
      split <;> exact h.of_eq rfl rfl rfl
    · exact h.of_eq rfl rfl rfl
  · exact h

theorem Inv.step (E : BlockCipher) (byMSISDN : String → Option Imsi) (hk : u.Keeps ev) :
    (u.step E byMSISDN ev).Inv := by
  cases ev with
  | generateAV imsi rand => exact h.withCreds imsi _
  | realGenerateAV impi rand =>
    unfold step
    dsimp only
    split
    · exact h
    · exact h.withCreds _ _
  | updateSQNOnSyncFailure imsi auts randBuf =>
    unfold step
    dsimp only
    split
    · exact h
    · exact h.withCreds imsi _
  | reloadAuth imsi | loadCache | provision imsi row => exact h.of_eq rfl rfl rfl
  | proceed call =>
    unfold step
    dsimp only
    split
    · case isTrue hin =>
      have herase : Inv { u with inFlight := u.inFlight.erase call } := h.of_eq rfl rfl rfl
      refine herase.advance E ?_
      have hk := hk hin
      cases call with
      | load todo rows => cases todo <;> exact hk
      | _ => exact hk
    · exact h
  | flushOnce =>
    unfold step
    dsimp only
    split
    · exact h.of_eq rfl rfl rfl
    · exact h
  | persist imsi sqn ok => exact h.persist E byMSISDN imsi sqn ok
  | dropAuth imsi => exact h.dropAuth imsi
  | restart => exact Inv.start u.db _

end

theorem Keeps.notLowered (E : BlockCipher) (byMSISDN : String → Option Imsi) (hk : u.Keeps ev) :
    u.NotLowered E byMSISDN ev := by
  unfold NotLowered
  split
  · case h_1 imsi creds auts randBuf =>
    intro ad had ad' had'
    by_cases hin : AuthCall.resync imsi creds auts randBuf ∈ u.inFlight
    · have hread := hk hin ad had
      unfold step at had'
      dsimp only at had'
      rw [if_pos hin] at had'
      rcases mem_bumpSQN had' with ⟨-, hne⟩ | ⟨-, hsqn, -⟩
      · exact (hne rfl).elim
      · rw [hsqn, hread]
        exact le_nextSQN E creds auts randBuf
    · simp_all [step]
  · exact trivial

/-! ## Main result -/

/-- In every run whose steps meet the condition the vectors issued since the start carry larger and
larger SQNs, none below the one persisted at the start, and no re-synchronisation lowers the
stored SQN. -/
theorem inOrder_of_keeps (E : BlockCipher) (byMSISDN : String → Option Imsi)
    (db : AssocMap Imsi UEAuthData) (events : List UdmEvent)
    (h : Meets (step E byMSISDN) Keeps ⟨db, db, [], [], [], [], [], db⟩ events) :
    Meets (step E byMSISDN)
      (fun u ev => (u.step E byMSISDN ev).InOrder ∧ u.NotLowered E byMSISDN ev)
      ⟨db, db, [], [], [], [], [], db⟩ events :=
  h.imp (I := Inv)
    (fun _ _ hinv hk => ⟨⟨(hinv.step E byMSISDN hk).order, Keeps.notLowered E byMSISDN hk⟩,
      hinv.step E byMSISDN hk⟩)
    (Inv.start db [])

/-- A cipher that adds the key. -/
def addKey : BlockCipher := fun k x => k ^^^ x

def aSubscriber : UEAuthData := ⟨7, 64, .opc, 9, 0x8000⟩

def provisioned : AssocMap Imsi UEAuthData :=
  AssocMap.assign ∅ "001010000000001" aSubscriber

def atStart : AuthStore := ⟨provisioned, provisioned, [], [], [], [], [], provisioned⟩

/-- Vectors for both services, a re-synchronisation, a flush and a restart. -/
def orderlyRun : List UdmEvent :=
  [.generateAV "001010000000001" 1, .proceed (.generate "001010000000001" aSubscriber 1),
    .realGenerateAV "001010000000001@ims.local" 2,
    .proceed (.generate "001010000000001" { aSubscriber with sqn := 96 } 2),
    .updateSQNOnSyncFailure "001010000000001" (List.replicate 14 0) (List.replicate 16 0),
    .proceed (.resync "001010000000001" { aSubscriber with sqn := 128 } (List.replicate 14 0)
      (List.replicate 16 0)),
    .flushOnce, .persist "001010000000001" 458784 true, .restart,
    .generateAV "001010000000001" 3,
    .proceed (.generate "001010000000001" { aSubscriber with sqn := 458784 } 3)]

theorem inOrder_orderlyRun :
    Meets (step addKey fun _ => none)
      (fun u ev => (u.step addKey (fun _ => none) ev).InOrder ∧
        u.NotLowered addKey (fun _ => none) ev) atStart orderlyRun :=
  inOrder_of_keeps addKey (fun _ => none) provisioned orderlyRun
    ⟨by decide, by decide, by decide, by decide,
      by decide, by decide, by decide, by decide,
      by decide, by decide, by decide, trivial⟩

/-- A vector, and a restart before the flusher has written its SQN. -/
def crashRun : List UdmEvent :=
  [.generateAV "001010000000001" 1, .proceed (.generate "001010000000001" aSubscriber 1), .restart,
    .generateAV "001010000000001" 2, .proceed (.generate "001010000000001" aSubscriber 2)]

/-- The AUSF and the IMS read the same SQN. -/
def twoServices : List UdmEvent :=
  [.generateAV "001010000000001" 1, .realGenerateAV "001010000000001@ims.local" 2,
    .proceed (.generate "001010000000001" aSubscriber 1),
    .proceed (.generate "001010000000001" aSubscriber 2)]

/-- A reload before the flusher has written the SQN. -/
def reloadRun : List UdmEvent :=
  [.generateAV "001010000000001" 1, .proceed (.generate "001010000000001" aSubscriber 1),
    .reloadAuth "001010000000001",
    .proceed (.reload "001010000000001" (some aSubscriber)),
    .generateAV "001010000000001" 2, .proceed (.generate "001010000000001" aSubscriber 2)]

/-- The vectors that a run issues, the latest first. -/
def allIssued (events : List UdmEvent) : List AuthVector :=
  let u := run (step addKey fun _ => none) atStart events
  u.issued ++ u.before

/-- In each of the runs two vectors of the subscriber carry one SQN. -/
theorem sqn_reused :
    ¬ Growing (allIssued crashRun) ∧ ¬ Growing (allIssued twoServices) ∧
      ¬ Growing (allIssued reloadRun) := by
  decide

end AuthStore

end MmtCore.Udm
