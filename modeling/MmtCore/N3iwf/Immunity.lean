import MmtCore.Lib.Reach
import MmtCore.N3iwf.Negotiation

/-!
# Traffic without authentication

IKE_SA_INIT requests and datagrams that fail the integrity check, in any number and order, beside
the IKE SA of one UE.  An IKE_SA_INIT from the address of the UE is carried out on its context, and
one that negotiates under its SPIi takes that index entry; nothing else reaches the UE.
-/

namespace MmtCore.N3iwf

open MmtCore.Lib Option Handler Manager Or

/-- What a context has from the AMF and from IKE_AUTH: NGAP ids, Knh and child SAs. -/
def UEContext.attributed (u : UEContext) :
    Option UInt64 × Option UInt32 × Bytes × List ChildSA :=
  (u.amfUeNgapID, u.ranUeNgapID, u.knh, u.childSAs)

/-- Nothing of the sort, as in a new context. -/
def noneAttributed : Option UInt64 × Option UInt32 × Bytes × List ChildSA := (none, none, [], [])

/-- A datagram that proves nothing about its sender. -/
def Unauthenticated (crypto : Crypto) (h : Handler) (msg : Bytes) : Prop :=
  ∀ hdr, parseHeader msg = some hdr →
    hdr.exchangeType = exchangeIKESAInit ∨ h.opened crypto hdr msg = none

/-- An IKE_SA_INIT request that is carried out comes from another address than that of the UE, and
if it negotiates it has another SPIi. -/
def Spares (u : UEContext) (msg : Bytes) (src : UDPAddr) (d : Draws) : Prop :=
  ∀ {hdr chosen keIn nonceIn}, InitAccepted msg hdr chosen keIn nonceIn →
    src ≠ u.addr ∧ (Negotiable chosen keIn d → hdr.spii ≠ u.ike.ikeInitiator)

/-- An event of unauthenticated traffic that spares the UE. -/
def Event.Spares (crypto : Crypto) (u : UEContext) (h : Handler) : Event → Prop
  | .datagram msg src d => Unauthenticated crypto h msg ∧ N3iwf.Spares u msg src d
  | .amf _ _ => False
  | .registerUPSA _ _ _ _ _ => False

/-- The context of a UE is as it was and found where it was, its protected requests open as they
did, and what other contexts have they had before. -/
structure Immune (crypto : Crypto) (u : UEContext) (h h' : Handler) : Prop where
  context : h'.mgr.byID u.ueID = some u
  found : h'.mgr.lookupBySPIi u.ike.ikeInitiator = some u
  opens : ∀ hdr msg, hdr.spii = u.ike.ikeInitiator →
    h'.opened crypto hdr msg = h.opened crypto hdr msg
  others : ∀ id v, id ≠ u.ueID → h'.mgr.byID id = some v → v.attributed = noneAttributed ∨
    ∃ v₀, h.mgr.byID id = some v₀ ∧ v.attributed = v₀.attributed

variable {crypto : Crypto} {h h₁ h' : Handler} {u : UEContext} {msg : Bytes} {src : UDPAddr}
  {d : Draws}

/-- An exchange after IKE_SA_INIT is not unauthenticated. -/
theorem Protected.not_unauthenticated {exchange : UInt8} {hdr : Header} {v : UEContext}
    {suiteR : CipherSuite} {inner : List Payload}
    (hopen : Protected crypto h msg exchange hdr v suiteR inner)
    (hexch : exchange ≠ exchangeIKESAInit) : ¬ Unauthenticated crypto h msg := by
  intro hun
  obtain hinit | hnone := hun hdr hopen.parses
  · exact hexch (hopen.exchange.symm.trans hinit)
  · rw [hopen.opens] at hnone
    cases hnone

/-- Both handlers open the requests under an SPIi with the context they find there. -/
theorem opened_eq (hfound : h.mgr.lookupBySPIi u.ike.ikeInitiator = some u)
    (hfound' : h'.mgr.lookupBySPIi u.ike.ikeInitiator = some u) {hdr : Header}
    (hspii : hdr.spii = u.ike.ikeInitiator) :
    h'.opened crypto hdr msg = h.opened crypto hdr msg := by
  unfold opened
  rw [hspii, hfound, hfound']

namespace Immune

theorem refl (hwf : h.mgr.WF) (hfound : h.mgr.lookupBySPIi u.ike.ikeInitiator = some u) :
    Immune crypto u h h where
  context := (hwf.filed_of_spii hfound).1
  found := hfound
  opens _ _ _ := rfl
  others _ v _ hv := inr ⟨v, hv, rfl⟩

theorem trans (i₁ : Immune crypto u h h₁) (i₂ : Immune crypto u h₁ h') :
    Immune crypto u h h' where
  context := i₂.context
  found := i₂.found
  opens hdr msg hspii := (i₂.opens hdr msg hspii).trans (i₁.opens hdr msg hspii)
  others id v hne hv := by
    obtain hnone | ⟨v₁, hv₁, hattr₁⟩ := i₂.others id v hne hv
    · exact inl hnone
    · obtain hnone | ⟨v₀, hv₀, hattr₀⟩ := i₁.others id v₁ hne hv₁
      · exact inl (hattr₁.trans hnone)
      · exact inr ⟨v₀, hv₀, hattr₁.trans hattr₀⟩

/-- A write to the context of another address, found or created, that leaves it what it has. -/
theorem put_found (hwf : h.mgr.WF) (hfound : h.mgr.lookupBySPIi u.ike.ikeInitiator = some u)
    (haddr : src ≠ u.addr) {m : Manager} {v : UEContext}
    (hbyID : m.byID = (h.mgr.findOrCreate src).1.byID)
    (hspii : m.bySPIi u.ike.ikeInitiator = h.mgr.bySPIi u.ike.ikeInitiator)
    (hid : v.ueID = (h.mgr.findOrCreate src).2.ueID)
    (hattr : v.attributed = (h.mgr.findOrCreate src).2.attributed) :
    Immune crypto u h { h with mgr := m.put v } := by
  obtain ⟨hu, hus⟩ := hwf.filed_of_spii hfound
  -- the context of another address is another context
  have hne : u.ueID ≠ (h.mgr.findOrCreate src).2.ueID := by
    intro heq
    obtain ⟨hold, -⟩ | ⟨hnone, hnew⟩ := findOrCreate_cases h.mgr src
    · obtain ⟨hold', hsrc⟩ := hwf.filed_of_addr hold
      simp_all
    · rw [hnew] at heq
      exact absurd (hwf.id_lt hu) (by rw [heq]; exact Nat.lt_irrefl _)
  have hother : ∀ {i : Nat}, i ≠ (h.mgr.findOrCreate src).2.ueID →
      (m.put v).byID i = h.mgr.byID i := by
    intro i hi
    rw [put_byID, hid, if_neg hi, hbyID, findOrCreate_byID_ne hi]
  have hcontext : (m.put v).byID u.ueID = some u := (hother hne).trans hu
  have hlookup : (m.put v).lookupBySPIi u.ike.ikeInitiator = some u :=
    lookupBySPIi_eq_some.2 ⟨u.ueID, hspii.trans hus, hcontext⟩
  refine ⟨hcontext, hlookup, fun hdr msg hs => opened_eq hfound hlookup hs, ?_⟩
  intro i w hi hw
  by_cases hiv : i = (h.mgr.findOrCreate src).2.ueID
  · have hwv : w = v := by
      grind [put_byID_self]
    obtain ⟨hold, -⟩ | ⟨-, hnew⟩ := findOrCreate_cases h.mgr src
    · exact inr ⟨_, hiv ▸ (hwf.filed_of_addr hold).1, hwv ▸ hattr⟩
    · rw [hnew] at hattr
      exact inl (hwv ▸ hattr)
  · exact inr ⟨w, (hother hiv).symm.trans hw, rfl⟩

/-- One datagram of unauthenticated traffic. -/
theorem handled (hwf : h.mgr.WF) (hfound : h.mgr.lookupBySPIi u.ike.ikeInitiator = some u)
    (hun : Unauthenticated crypto h msg) (hsp : Spares u msg src d)
    {ms : List (Nat × Mark)} (hd : Handled crypto h msg src d h' ms) : Immune crypto u h h' := by
  cases hd with
  | ignored => exact refl hwf hfound
  | initFailed hacc hneg hr =>
    exact put_found hwf hfound (hsp hacc).1 rfl (congrFun findOrCreate_bySPIi _) rfl rfl
  | @initDone hdr chosen keIn nonceIn ike spir pub nr v hacc hneg hv =>
    obtain ⟨haddr, hspii⟩ := hsp hacc
    have hne := hspii (negotiable_of_done hacc hneg)
    have hike : ike.ikeInitiator = hdr.spii := negotiate_ikeInitiator hneg
    have hv_spii : v.ike.ikeInitiator = hdr.spii := by
      rw [hv]
      exact hike
    refine put_found hwf hfound haddr rfl ?_ (by rw [hv]) (by rw [hv]; rfl)
    rw [registerSPIi_bySPIi, hv_spii, if_neg hne.symm, findOrCreate_bySPIi]
  | identified hopen | relayed hopen
  | authenticated hopen
  | childCreated hopen | deleted hopen
  | tornDown hopen => exact absurd hun (hopen.not_unauthenticated (by decide))

end Immune

/-- A UE that is found under its SPIi, established or not, is immune to every run of unauthenticated
traffic that spares it. -/
theorem unauthenticated_immune (crypto : Crypto) (identity : Bytes) (amf : Bool)
    (cidr : Option (Nat × Nat)) (es : List Event) {u : UEContext} {h' : Handler}
    (hfound : (run (Handler.step crypto) (newHandler identity amf cidr)
      es).mgr.lookupBySPIi u.ike.ikeInitiator = some u)
    (hreach : Reach (Handler.step crypto) (fun h e => e.Spares crypto u h)
      (run (Handler.step crypto) (newHandler identity amf cidr) es) h') :
    Immune crypto u (run (Handler.step crypto) (newHandler identity amf cidr) es) h' := by
  have hwf : (run (step crypto) (newHandler identity amf cidr) es).mgr.WF :=
    run_invariant (fun (h : Handler) e hwf => step_wf (h := h) crypto hwf e) es
      Manager.WF.new
  have hinv : h'.mgr.WF ∧
      Immune crypto u (run (step crypto) (newHandler identity amf cidr) es) h' := by
    refine hreach.invariant
      (I := fun s => s.mgr.WF ∧
        Immune crypto u (run (step crypto) (newHandler identity amf cidr) es) s)
      ⟨hwf, Immune.refl hwf hfound⟩ ?_
    rintro s e ⟨hs, himm⟩ hsp
    refine ⟨step_wf crypto hs e, ?_⟩
    cases e with
    | datagram msg src d =>
      obtain ⟨ms, hd⟩ := handle_handled crypto s msg src d
      exact himm.trans (Immune.handled hs himm.found hsp.1 hsp.2 hd)
    | amf m up | registerUPSA ueID childIdx teidUp ueAddr upfAddr => exact hsp.elim
  exact hinv.2

/-- Beside the registered UE of the sample exchange another peer starts an IKE SA. -/
theorem unauthenticated_immune_sample :
    ∃ u, u.Established ∧
      Immune sampleCrypto u
        (run (Handler.step sampleCrypto) sampleHandler sampleRegistration)
        (run (Handler.step sampleCrypto) sampleHandler
          (sampleRegistration ++
            [.datagram (sampleInit 2) (sampleAddr 501) sampleOtherDraws])) := by
  have hreg : ((run (step sampleCrypto) sampleHandler
      sampleRegistration).mgr.lookupBySPIi 1).map
        (fun u => (u.ike.ikeInitiator, u.addr, u.state)) =
      some (1, sampleAddr 500, .registered) := by
    decide +kernel
  have hparse : (parseHeader (sampleInit 2)).map (fun hdr => (hdr.spii, hdr.exchangeType)) =
      some (2, exchangeIKESAInit) := by
    decide +kernel
  obtain ⟨u, hu, hfields⟩ := map_eq_some_iff.1 hreg
  simp only [Prod.mk.injEq] at hfields
  obtain ⟨hspii, haddr, hstate⟩ := hfields
  refine ⟨u, inl hstate, ?_⟩
  have hspares : (Event.datagram (sampleInit 2) (sampleAddr 501) sampleOtherDraws).Spares
      sampleCrypto u (run (step sampleCrypto) sampleHandler sampleRegistration) := by
    constructor
    · intro hdr hhdr
      simp_all
    · intro hdr chosen keIn nonceIn hacc
      have hmap := hparse
      rw [hacc.parses] at hmap
      have hne : hdr.spii = 2 := congrArg Prod.fst (some.inj hmap)
      rw [haddr, hspii, hne]
      exact ⟨by decide, fun _ => by decide⟩
  rw [run_append, run_cons, run_nil]
  exact unauthenticated_immune sampleCrypto _ _ _ sampleRegistration (by rw [hspii]; exact hu)
    (Reach.start.next _ hspares)

/-- An IKE_SA_INIT from the address of the registered UE is carried out on its context: the new SA
has the Knh, the NGAP ids and the child SA of the old one. -/
theorem established_taken_over :
    ∃ u v, (run (Handler.step sampleCrypto) sampleHandler
        sampleRegistration).mgr.lookupBySPIi u.ike.ikeInitiator = some u ∧ u.Established ∧
      (run (Handler.step sampleCrypto) sampleHandler
        (sampleRegistration ++
          [.datagram (sampleInit 2) (sampleAddr 500) sampleOtherDraws])).mgr.lookupBySPIi 2
            = some v ∧
      v.ueID = u.ueID ∧ ¬ v.Established ∧ v.ike ≠ u.ike ∧
      v.attributed = u.attributed ∧ v.attributed ≠ noneAttributed := by
  have hrun : ((run (step sampleCrypto) sampleHandler
      sampleRegistration).mgr.lookupBySPIi 1).any (fun u =>
        ((run (step sampleCrypto) sampleHandler
          (sampleRegistration ++
            [.datagram (sampleInit 2) (sampleAddr 500) sampleOtherDraws])).mgr.lookupBySPIi 2).any
          fun v => decide (u.ike.ikeInitiator = 1 ∧ u.Established ∧ v.ueID = u.ueID ∧
            ¬ v.Established ∧ v.ike ≠ u.ike ∧ v.attributed = u.attributed ∧
            v.attributed ≠ noneAttributed)) = true := by
    decide +kernel
  obtain ⟨u, hu, hany⟩ := (any_eq_true _ _).1 hrun
  obtain ⟨v, hv, hfields⟩ := (any_eq_true _ _).1 hany
  grind

example : (newManager.lookupBySPIi 1).isNone := by decide +kernel

end MmtCore.N3iwf
