import MmtCore.N3iwf.Steps

/-!
# The tables of the manager

`Manager.WF` holds in every run, whatever comes in: a context is filed under its id and found under
its address, and no id is given out twice.  The SPIi index is another matter, since an IKE_SA_INIT
may enter any SPIi there.
-/

namespace MmtCore.N3iwf

open Function Option Handler Nat

structure Manager.WF (m : Manager) : Prop where
  ueID : ∀ {id u}, m.byID id = some u → u.ueID = id
  id_lt : ∀ {id u}, m.byID id = some u → id < m.nextUEID
  byAddr : ∀ {id u}, m.byID id = some u → m.byAddr u.addr = some id
  addr : ∀ {a id u}, m.byAddr a = some id → m.byID id = some u → u.addr = a
  byAddr_lt : ∀ {a id}, m.byAddr a = some id → id < m.nextUEID
  bySPIi_lt : ∀ {s id}, m.bySPIi s = some id → id < m.nextUEID

namespace Manager

variable {m : Manager} {u u₀ : UEContext} {id : Nat} {a : UDPAddr}

theorem WF.new : newManager.WF where
  ueID h := by cases h
  id_lt h := by cases h
  byAddr h := by cases h
  addr h := by cases h
  byAddr_lt h := by cases h
  bySPIi_lt h := by cases h

/-- A context that is found is filed under its id. -/
theorem WF.filed_of_addr (hwf : m.WF) (h : m.lookupByAddr a = some u) :
    m.byID u.ueID = some u ∧ u.addr = a := by
  obtain ⟨id, ha, hid⟩ := lookupByAddr_eq_some.1 h
  have hue := hwf.ueID hid
  subst hue
  exact ⟨hid, hwf.addr ha hid⟩

variable {s : UInt64} {b : UDPAddr}

theorem WF.filed_of_spii (hwf : m.WF) (h : m.lookupBySPIi s = some u) :
    m.byID u.ueID = some u ∧ m.bySPIi s = some u.ueID := by
  obtain ⟨id, hs, hid⟩ := lookupBySPIi_eq_some.1 h
  have hue := hwf.ueID hid
  subst hue
  exact ⟨hid, hs⟩

theorem WF.lookupByAddr (hwf : m.WF) (h : m.byID id = some u) :
    m.lookupByAddr u.addr = some u :=
  lookupByAddr_eq_some.2 ⟨id, hwf.byAddr h, h⟩

/-- Two contexts of one address are one context. -/
theorem WF.addr_inj (hwf : m.WF) {id' : Nat} {u' : UEContext} (h : m.byID id = some u)
    (h' : m.byID id' = some u') (haddr : u.addr = u'.addr) : id = id' := by
  have hb := hwf.byAddr h
  rw [haddr, hwf.byAddr h'] at hb
  exact (some.inj hb).symm

theorem WF.put (hwf : m.WF) (hfiled : m.byID u.ueID = some u₀) (haddr : u.addr = u₀.addr) :
    (m.put u).WF := by
  have hcases : ∀ {i v}, (m.put u).byID i = some v →
      ∃ v₀, m.byID i = some v₀ ∧ v.ueID = i ∧ v.addr = v₀.addr := by
    intro i v hv
    rw [put_byID] at hv
    split at hv
    case isTrue hi =>
      cases hv
      exact ⟨u₀, hi ▸ hfiled, hi.symm, haddr⟩
    case isFalse => exact ⟨v, hv, hwf.ueID hv, rfl⟩
  refine ⟨?_, ?_, ?_, ?_, hwf.byAddr_lt, hwf.bySPIi_lt⟩
  · intro i v hv
    obtain ⟨-, -, hid, -⟩ := hcases hv
    exact hid
  · intro i v hv
    obtain ⟨v₀, hv₀, -, -⟩ := hcases hv
    exact hwf.id_lt hv₀
  · intro i v hv
    obtain ⟨v₀, hv₀, -, ha⟩ := hcases hv
    rw [put_byAddr, ha]
    exact hwf.byAddr hv₀
  · intro b i v hb hv
    obtain ⟨v₀, hv₀, -, ha⟩ := hcases hv
    rw [ha]
    exact hwf.addr hb hv₀

theorem create_byID : (m.create a).1.byID id =
    if id = m.nextUEID then some (newUEContext m.nextUEID a) else m.byID id := by
  simp [create, update_apply]

theorem create_byAddr : (m.create a).1.byAddr b =
    if b = a then some m.nextUEID else m.byAddr b := by
  simp [create, update_apply]

theorem WF.create (hwf : m.WF) (hnew : m.lookupByAddr a = none) : (m.create a).1.WF := by
  have hne : ∀ {i v}, m.byID i = some v → v.addr ≠ a := by
    rintro i v hv rfl
    rw [hwf.lookupByAddr hv] at hnew
    cases hnew
  refine ⟨?_, ?_, ?_, ?_, ?_, fun h => lt_succ_of_lt (hwf.bySPIi_lt h)⟩
  · intro i v hv
    rw [create_byID] at hv
    split at hv
    case isTrue hi =>
      cases hv
      exact hi.symm
    case isFalse => exact hwf.ueID hv
  · intro i v hv
    rw [create_byID] at hv
    show i < m.nextUEID + 1
    split at hv
    case isTrue hi => omega
    case isFalse => exact lt_succ_of_lt (hwf.id_lt hv)
  · intro i v hv
    rw [create_byID] at hv
    rw [create_byAddr]
    split at hv
    case isTrue hi =>
      grind [newUEContext]
    case isFalse =>
      rw [if_neg (hne hv)]
      exact hwf.byAddr hv
  · intro b i v hb hv
    rw [create_byAddr] at hb
    rw [create_byID] at hv
    split at hb
    case isTrue hba =>
      cases hb
      rw [if_pos rfl] at hv
      cases hv
      exact hba.symm
    case isFalse =>
      have hi : i ≠ m.nextUEID := Nat.ne_of_lt (hwf.byAddr_lt hb)
      rw [if_neg hi] at hv
      exact hwf.addr hb hv
  · intro b i hb
    rw [create_byAddr] at hb
    split at hb
    · cases hb
      exact lt_succ_self _
    · exact lt_succ_of_lt (hwf.byAddr_lt hb)

theorem WF.findOrCreate (hwf : m.WF) (a : UDPAddr) : (m.findOrCreate a).1.WF := by
  obtain ⟨-, hm⟩ | ⟨hnew, hm⟩ := findOrCreate_cases m a
  · rwa [hm]
  · rw [hm]
    exact hwf.create hnew

/-- What `findOrCreate` returns is filed, at the address asked for. -/
theorem WF.findOrCreate_filed (hwf : m.WF) (a : UDPAddr) :
    (m.findOrCreate a).1.byID (m.findOrCreate a).2.ueID = some (m.findOrCreate a).2 ∧
      (m.findOrCreate a).2.addr = a := by
  obtain ⟨hold, hm⟩ | ⟨-, hm⟩ := findOrCreate_cases m a
  · rw [hm]
    exact hwf.filed_of_addr hold
  · rw [hm]
    exact ⟨by simp [Manager.create, newUEContext], rfl⟩

/-- The other contexts stay as they are when one is found or created. -/
theorem findOrCreate_byID_ne (hne : id ≠ (m.findOrCreate a).2.ueID) :
    (m.findOrCreate a).1.byID id = m.byID id := by
  obtain ⟨-, hm⟩ | ⟨-, hm⟩ := findOrCreate_cases m a
  · rw [hm]
  · rw [hm] at hne ⊢
    rw [create_byID, if_neg (show id ≠ m.nextUEID from hne)]

theorem findOrCreate_bySPIi : (m.findOrCreate a).1.bySPIi = m.bySPIi := by
  obtain ⟨-, hm⟩ | ⟨-, hm⟩ := findOrCreate_cases m a <;> rw [hm]
  rfl

theorem WF.registerSPIi (hwf : m.WF) (hlt : u.ueID < m.nextUEID) : (m.registerSPIi u).WF := by
  refine ⟨hwf.ueID, hwf.id_lt, hwf.byAddr, hwf.addr, hwf.byAddr_lt, ?_⟩
  intro s i hs
  rw [registerSPIi_bySPIi] at hs
  split at hs
  · cases hs
    exact hlt
  · exact hwf.bySPIi_lt hs

theorem WF.allocateTEID (hwf : m.WF) : m.allocateTEID.1.WF :=
  ⟨hwf.ueID, hwf.id_lt, hwf.byAddr, hwf.addr, hwf.byAddr_lt, hwf.bySPIi_lt⟩

/-- The tables after the removal of a context. -/
theorem remove_byID (h : m.byID id = some u) {i : Nat} :
    (m.remove id).byID i = if i = id then none else m.byID i := by
  rw [remove_of_some h]
  simp [update_apply]

theorem remove_byAddr (h : m.byID id = some u) :
    (m.remove id).byAddr b = if b = u.addr then none else m.byAddr b := by
  rw [remove_of_some h]
  simp [update_apply]

theorem remove_bySPIi (h : m.byID id = some u) :
    (m.remove id).bySPIi s = if s = u.ike.ikeInitiator then none else m.bySPIi s := by
  rw [remove_of_some h]
  simp [update_apply]

theorem WF.remove (hwf : m.WF) (h : m.byID id = some u) : (m.remove id).WF := by
  have hnext : (m.remove id).nextUEID = m.nextUEID := by rw [remove_of_some h]
  have hold : ∀ {i v}, (m.remove id).byID i = some v → i ≠ id ∧ m.byID i = some v := by
    simp_all [remove_byID]
  have haddr : ∀ {b i}, (m.remove id).byAddr b = some i → m.byAddr b = some i := by
    simp_all [remove_byAddr]
  refine ⟨fun hv => hwf.ueID (hold hv).2, ?_, ?_, fun hb hv => hwf.addr (haddr hb) (hold hv).2,
    ?_, ?_⟩
  · intro i v hv
    rw [hnext]
    exact hwf.id_lt (hold hv).2
  · intro i v hv
    obtain ⟨hi, hv⟩ := hold hv
    have hne : v.addr ≠ u.addr := fun hva => hi (hwf.addr_inj hv h hva)
    rw [remove_byAddr h, if_neg hne]
    exact hwf.byAddr hv
  · intro b i hb
    rw [hnext]
    exact hwf.byAddr_lt (haddr hb)
  · intro s i hs
    rw [hnext]
    rw [remove_bySPIi h] at hs
    split at hs
    · cases hs
    · exact hwf.bySPIi_lt hs

end Manager

/-! ## Changes that leave the holdings alone -/

/-- A context with other EAP, N2 and channel fields: identity, IKE SA, child SAs and inner address
are as before. -/
structure UEContext.Kin (u u' : UEContext) : Prop where
  ueID : u'.ueID = u.ueID
  addr : u'.addr = u.addr
  ike : u'.ike = u.ike
  childSAs : u'.childSAs = u.childSAs
  innerIP : u'.innerIP = u.innerIP

theorem UEContext.Kin.refl (u : UEContext) : u.Kin u := ⟨rfl, rfl, rfl, rfl, rfl⟩

theorem UEContext.Kin.trans {u v w : UEContext} (h : u.Kin v) (h' : v.Kin w) : u.Kin w :=
  ⟨h'.ueID.trans h.ueID, h'.addr.trans h.addr, h'.ike.trans h.ike,
    h'.childSAs.trans h.childSAs, h'.innerIP.trans h.innerIP⟩

theorem UEContext.kin_receive (u : UEContext) (m : AmfMsg) : u.Kin (u.receive m) := by
  cases m <;> exact ⟨rfl, rfl, rfl, rfl, rfl⟩

/-- Nothing but the contexts and the link to the AMF changes, and every context stays kin. -/
structure Handler.Kept (h h' : Handler) : Prop where
  registry : h'.registry = h.registry
  innerIPPool : h'.innerIPPool = h.innerIPPool
  byAddr : h'.mgr.byAddr = h.mgr.byAddr
  bySPIi : h'.mgr.bySPIi = h.mgr.bySPIi
  nextUEID : h'.mgr.nextUEID = h.mgr.nextUEID
  nextTEID : h'.mgr.nextTEID = h.mgr.nextTEID
  forward : ∀ {id u}, h.mgr.byID id = some u → ∃ u', h'.mgr.byID id = some u' ∧ u.Kin u'
  backward : ∀ {id u'}, h'.mgr.byID id = some u' → ∃ u, h.mgr.byID id = some u ∧ u.Kin u'

/-- The context of a protected request is filed under its id and entered under its SPIi. -/
theorem Protected.filed {h : Handler} {u : UEContext} {crypto : Crypto} {msg : Bytes}
    {exchange : UInt8} {hdr : Header} {suiteR : CipherSuite} {inner : List Payload} (hwf : h.mgr.WF)
    (hopen : Protected crypto h msg exchange hdr u suiteR inner) :
    h.mgr.byID u.ueID = some u ∧ h.mgr.bySPIi hdr.spii = some u.ueID := by
  have hopens := hopen.opens
  unfold opened at hopens
  split at hopens
  · cases hopens
  case h_2 v hv =>
    split at hopens
    · obtain ⟨inner', -, heq⟩ := map_eq_some_iff.1 hopens
      cases heq
      exact hwf.filed_of_spii hv
    · cases hopens

namespace Handler

variable {h h₁ h₂ : Handler} {u u' : UEContext}

theorem Kept.refl (h : Handler) : h.Kept h :=
  ⟨rfl, rfl, rfl, rfl, rfl, rfl, fun hu => ⟨_, hu, .refl _⟩, fun hu => ⟨_, hu, .refl _⟩⟩

theorem Kept.trans (k₁ : h.Kept h₁) (k₂ : h₁.Kept h₂) : h.Kept h₂ := by
  refine ⟨k₂.registry.trans k₁.registry, k₂.innerIPPool.trans k₁.innerIPPool,
    k₂.byAddr.trans k₁.byAddr, k₂.bySPIi.trans k₁.bySPIi, k₂.nextUEID.trans k₁.nextUEID,
    k₂.nextTEID.trans k₁.nextTEID, ?_, ?_⟩
  · intro id u hu
    obtain ⟨v, hv, huv⟩ := k₁.forward hu
    obtain ⟨w, hw, hvw⟩ := k₂.forward hv
    exact ⟨w, hw, huv.trans hvw⟩
  · intro id w hw
    obtain ⟨v, hv, hvw⟩ := k₂.backward hw
    obtain ⟨u, hu, huv⟩ := k₁.backward hv
    exact ⟨u, hu, huv.trans hvw⟩

theorem Kept.put (hfiled : h.mgr.byID u.ueID = some u) (hkin : u.Kin u') : h.Kept (h.put u') := by
  refine ⟨rfl, rfl, rfl, rfl, rfl, rfl, ?_, ?_⟩
  · intro id v hv
    by_cases hid : id = u.ueID
    · subst hid
      rw [hfiled] at hv
      cases hv
      exact ⟨u', by rw [Handler.put, Manager.put_byID, if_pos hkin.ueID.symm], hkin⟩
    · exact ⟨v, by rw [Handler.put, Manager.put_byID, if_neg (hkin.ueID ▸ hid), hv], .refl v⟩
  · intro id v hv
    rw [Handler.put, Manager.put_byID] at hv
    split at hv
    case isTrue hid =>
      cases hv
      exact ⟨u, by rw [hid, hkin.ueID, hfiled], hkin⟩
    case isFalse => exact ⟨v, hv, .refl v⟩

theorem Kept.bridge (h : Handler) (l : Option Link) : h.Kept { h with bridge := l } :=
  ⟨rfl, rfl, rfl, rfl, rfl, rfl, fun hu => ⟨_, hu, .refl _⟩, fun hu => ⟨_, hu, .refl _⟩⟩

theorem Kept.wf (k : h.Kept h₁) (hwf : h.mgr.WF) : h₁.mgr.WF := by
  refine ⟨?_, ?_, ?_, ?_, ?_, ?_⟩
  · intro id v hv
    obtain ⟨u, hu, huv⟩ := k.backward hv
    rw [huv.ueID]
    exact hwf.ueID hu
  · intro id v hv
    obtain ⟨u, hu, -⟩ := k.backward hv
    rw [k.nextUEID]
    exact hwf.id_lt hu
  · intro id v hv
    obtain ⟨u, hu, huv⟩ := k.backward hv
    rw [k.byAddr, huv.addr]
    exact hwf.byAddr hu
  · intro a id v ha hv
    obtain ⟨u, hu, huv⟩ := k.backward hv
    rw [k.byAddr] at ha
    rw [huv.addr]
    exact hwf.addr ha hu
  · intro a id ha
    rw [k.byAddr] at ha
    rw [k.nextUEID]
    exact hwf.byAddr_lt ha
  · intro s id hs
    rw [k.bySPIi] at hs
    rw [k.nextUEID]
    exact hwf.bySPIi_lt hs

theorem deliver_kept (hwf : h.mgr.WF) (up : Bool) (m : AmfMsg) : h.Kept (h.deliver up m) := by
  unfold deliver
  split
  · exact .refl h
  split
  · exact .refl h
  split
  · exact .refl h
  case h_2 link _ ueID _ =>
    dsimp only
    split
    · exact .bridge h _
    case h_2 u hu =>
      have hid : u.ueID = ueID := hwf.ueID hu
      subst hid
      exact (Kept.bridge h _).trans (.put hu (u.kin_receive m))

theorem deliver_all_kept (hwf : h.mgr.WF) (up : Bool) (ms : List AmfMsg) :
    h.Kept (ms.foldl (fun h m => h.deliver up m) h) := by
  induction ms generalizing h with
  | nil => exact .refl h
  | cons m ms ih =>
    have k := deliver_kept hwf up m
    exact k.trans (ih (k.wf hwf))

theorem forwardNAS_kin (l : Link) (u : UEContext) (nas : Bytes) (up : Bool) :
    u.Kin (l.forwardNAS u nas up).2.1 := by
  unfold Link.forwardNAS
  split <;> exact ⟨rfl, rfl, rfl, rfl, rfl⟩

theorem handleEAP5GResponse_kept (crypto : Crypto) (hwf : h.mgr.WF)
    (hfiled : h.mgr.byID u.ueID = some u) (suiteR : CipherSuite) (hdr : Header)
    (inner : List Payload) (d : Draws) :
    h.Kept (h.handleEAP5GResponse crypto u suiteR hdr inner d).1 := by
  unfold handleEAP5GResponse
  split
  · exact .refl h
  · exact .refl h
  case h_3 nas link _ _ =>
    have k₁ : h.Kept ({ h with bridge := some (link.forwardNAS u nas d.n2Up).1 }.put
        (link.forwardNAS u nas d.n2Up).2.1) :=
      (Kept.bridge h _).trans (.put hfiled (forwardNAS_kin link u nas d.n2Up))
    dsimp only
    split
    · exact k₁
    have k₂ := k₁.trans (deliver_all_kept (k₁.wf hwf) d.n2Up d.arrivals)
    split
    · exact k₂
    case h_2 v hv =>
      have hid := (k₂.wf hwf).ueID hv
      rw [← hid] at hv
      split
      · exact k₂
      · split
        · exact k₂.trans (.put hv ⟨rfl, rfl, rfl, rfl, rfl⟩)
        · exact k₂.trans (.put hv ⟨rfl, rfl, rfl, rfl, rfl⟩)

/-! ## Deletions -/

variable {id : Nat}

theorem deleteChildSA_of_some (hu : h.mgr.byID id = some u) (spi : UInt32) :
    h.deleteChildSA id spi =
      if u.childSAs.any (·.spiIn == spi) then
        { h with
          registry := h.registry.map (Registry.removeBySPI · spi)
          mgr := h.mgr.put { u with childSAs := u.childSAs.filter (·.spiIn != spi) } }
      else h := by
  simp [deleteChildSA, hu, put]

theorem deleteChildSA_of_none (hu : h.mgr.byID id = none) (spi : UInt32) :
    h.deleteChildSA id spi = h := by
  simp [deleteChildSA, hu]

/-- What every deletion keeps, all the deletions of a request keep. -/
theorem deleteChildSAs_induction {P : Handler → Prop} (hP : P h)
    (hstep : ∀ g spi, P g → P (g.deleteChildSA id spi)) (spis : List UInt32) :
    P (h.deleteChildSAs id spis) := by
  induction spis generalizing h with
  | nil => exact hP
  | cons spi spis ih => exact ih (hstep h spi hP)

theorem deleteChildSA_wf (hwf : h.mgr.WF) (spi : UInt32) : (h.deleteChildSA id spi).mgr.WF := by
  cases hu : h.mgr.byID id with
  | none => rwa [deleteChildSA_of_none hu]
  | some u =>
    rw [deleteChildSA_of_some hu]
    split
    · have hid := hwf.ueID hu
      subst hid
      exact hwf.put hu rfl
    · exact hwf

theorem deleteChildSAs_wf (hwf : h.mgr.WF) (spis : List UInt32) :
    (h.deleteChildSAs id spis).mgr.WF :=
  deleteChildSAs_induction (P := fun g => g.mgr.WF) hwf
    (fun _ spi hg => deleteChildSA_wf hg spi) spis

theorem tearDownUE_wf (hwf : h.mgr.WF) : (h.tearDownUE id).mgr.WF := by
  unfold tearDownUE
  split
  · exact hwf
  case h_2 u hu => exact hwf.remove hu

theorem allocateInnerIP_mgr {innerIP : Option Nat} (h₁ : Handler)
    (halloc : h.allocateInnerIP = some (innerIP, h₁)) : h₁.mgr = h.mgr := by
  grind [allocateInnerIP, map_eq_some_iff]

theorem handled_wf {crypto : Crypto} {msg : Bytes} {src : UDPAddr} {d : Draws} {h' : Handler}
    {ms : List (Nat × Mark)} (hwf : h.mgr.WF) (hd : Handled crypto h msg src d h' ms) :
    h'.mgr.WF := by
  have hfound := hwf.findOrCreate src
  obtain ⟨hfiled, -⟩ := hwf.findOrCreate_filed src
  cases hd with
  | ignored => exact hwf
  | initFailed hacc hneg hr => exact hfound.put hfiled rfl
  | @initDone hdr chosen keIn nonceIn ike spir pub nr u hacc hneg hu =>
    have hid : u.ueID = (h.mgr.findOrCreate src).2.ueID := by rw [hu]
    have haddr : u.addr = (h.mgr.findOrCreate src).2.addr := by rw [hu]
    rw [← hid] at hfiled
    exact (hfound.registerSPIi (hfound.id_lt hfiled)).put hfiled haddr
  | identified hopen heap hsucc hread hstate => exact hwf.put (hopen.filed hwf).1 rfl
  | relayed hopen heap hread =>
    exact (handleEAP5GResponse_kept crypto hwf (hopen.filed hwf).1 _ _ _ d).wf hwf
  | authenticated hopen hsucc hread halloc hspi hsig hteid =>
    have hmgr := allocateInnerIP_mgr _ halloc
    show (Manager.put _ _).WF
    rw [hmgr]
    exact hwf.put (hopen.filed hwf).1 rfl
  | childCreated hopen hread hspi hsig hteid =>
    split
    · exact hwf.put (hopen.filed hwf).1 rfl
    · exact hwf.allocateTEID.put (hopen.filed hwf).1 rfl
  | deleted hopen => exact deleteChildSAs_wf hwf _
  | tornDown hopen hike => exact tearDownUE_wf (deleteChildSAs_wf hwf _)

theorem registerUPSA_mgr {h' : Handler} {ueID childIdx : Nat} {teidUp : UInt32}
    {ueAddr upfAddr : UDPAddr}
    (hreg : h.registerUPSA ueID childIdx teidUp ueAddr upfAddr = some h') :
    h'.mgr = h.mgr ∧ h'.innerIPPool = h.innerIPPool := by
  unfold registerUPSA at hreg
  grind [map_eq_some_iff]

theorem step_wf (crypto : Crypto) (hwf : h.mgr.WF) (e : Event) : (h.step crypto e).mgr.WF := by
  cases e with
  | datagram msg src d =>
    obtain ⟨ms, hd⟩ := handle_handled crypto h msg src d
    exact handled_wf hwf hd
  | amf m up => exact (deliver_kept hwf up m).wf hwf
  | registerUPSA ueID childIdx teidUp ueAddr upfAddr =>
    show ((h.registerUPSA ueID childIdx teidUp ueAddr upfAddr).getD h).mgr.WF
    cases hreg : h.registerUPSA ueID childIdx teidUp ueAddr upfAddr with
    | none => exact hwf
    | some h' =>
      rw [getD_some, (registerUPSA_mgr hreg).1]
      exact hwf

end Handler

/-- The N3IWF as `Start` sets it up, with the AMF or without, and with the network and prefix length
of the pool of inner addresses if one is configured. -/
def newHandler (identity : Bytes) (amf : Bool) (cidr : Option (Nat × Nat)) : Handler where
  mgr := newManager
  identity := identity
  bridge := if amf then some newLink else none
  registry := some newRegistry
  innerIPPool := cidr.bind fun c => newPool c.1 c.2

end MmtCore.N3iwf
