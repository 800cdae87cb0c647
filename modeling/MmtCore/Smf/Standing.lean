import MmtCore.Smf.LinkView

/-!
# The manager and the UPFs

A session stands with the manager, with the UPF it is bound to and with all the others: `Standing`.
The standing `Agrees` when the rules of the mirror wait in the bridge or are at the UPF, and is
`Lost` when a commit failed.
-/

namespace MmtCore.Smf

open MmtCore.Lib MmtCore.Upf MmtCore.Pfcp RouterBridge Function

/-! ## Views through the router -/

namespace RouterBridge

variable {r : RouterBridge} {k k' : ImsiPduKey} {u : UpfID} {l l' : Link}
  {call : Link → Link × Except BridgeError Unit}

def views (r : RouterBridge) (k : ImsiPduKey) (u : UpfID) : Option View :=
  (r.bridges u).map (·.view k)

theorem views_set (l' : Link) :
    (r.set u l').views k = Function.update (r.views k) u (some (l'.view k)) := by
  funext u'
  unfold views set
  by_cases hu : u' = u
  · subst hu
    simp
  · simp [hu]

theorem views_set_eq (hl : r.bridges u = some l) (hview : l'.view k = l.view k) :
    (r.set u l').views k = r.views k := by
  simp_all [views_set, views]

theorem upfOf_dispatch : (r.dispatch k call).1.upfOf k' = r.upfOf k' := by
  unfold dispatch
  split <;> rfl

theorem views_dispatch (hl : r.bridges (r.upfOf k) = some l) :
    (r.dispatch k call).1.views k' =
      Function.update (r.views k') (r.upfOf k) (some ((call l).1.view k')) := by
  unfold dispatch
  rw [hl]
  exact views_set _

theorem views_dispatch_eq
    (hcall : ∀ l, r.bridges (r.upfOf k) = some l → (call l).1.view k' = l.view k') :
    (r.dispatch k call).1.views k' = r.views k' := by
  grind [dispatch, views_set_eq]

theorem dispatch_of_none (h : r.bridges (r.upfOf k) = none) :
    r.dispatch k call = (r, .error .noBridge) := by
  unfold dispatch
  rw [h]

theorem dispatch_of_some (hl : r.bridges (r.upfOf k) = some l) :
    r.dispatch k call = (r.set (r.upfOf k) (call l).1, (call l).2) := by
  unfold dispatch
  rw [hl]

/-- One FAR after another is one call. -/
theorem forEach_eq (call : FAR → Fate → Link → Link × Except BridgeError Unit) (fs : List FAR)
    (fates : List Fate) (r : RouterBridge) :
    r.forEach k call fs fates =
      (r.dispatch k fun l => (Link.forEach call fs fates l, .ok ())).1 := by
  have hset : ∀ (r : RouterBridge) (u : UpfID) (l l' : Link),
      (r.set u l).set u l' = r.set u l' := by
    intro r u l l'
    unfold set
    simp
  induction fs generalizing fates r with
  | nil =>
    unfold forEach Link.forEach dispatch
    split
    case h_1 => rfl
    case h_2 l hl =>
      refine (mk.injEq .. |>.mpr ⟨?_, rfl, rfl⟩).symm
      exact update_eq_self_iff.2 hl.symm
  | cons f fs ih =>
    refine (ih _ _).trans ?_
    cases hl : r.bridges (r.upfOf k) with
    | none => rw [dispatch_of_none hl, dispatch_of_none hl, dispatch_of_none hl]
    | some l =>
      have hl' : (r.set (r.upfOf k) (call f (fates.headD .lost) l).1).bridges (r.upfOf k) =
          some (call f (fates.headD .lost) l).1 := update_self ..
      rw [dispatch_of_some hl, dispatch_of_some hl', dispatch_of_some hl]
      exact hset ..

end RouterBridge

/-! ## Standings -/

structure Standing where
  mirror : Option Session
  /-- The UPF the session is bound to. -/
  upf : UpfID
  views : UpfID → Option View

def Manager.standing (m : Manager) (k : ImsiPduKey) : Standing :=
  ⟨m.sessions k, m.router.upfOf k, m.router.views k⟩

/-- The bridge a session is bound to, with its UPF. -/
def Manager.link (m : Manager) (k : ImsiPduKey) : Option Link :=
  m.router.bridges (m.router.upfOf k)

namespace Standing

variable (t : Standing)

/-- No other UPF has anything for the session. -/
def Elsewhere : Prop := ∀ u v, t.views u = some v → u ≠ t.upf → v.Vacant

def Agrees : Prop :=
  match t.mirror with
  | none => ∀ u v, t.views u = some v → v.Vacant
  | some s => t.Elsewhere ∧
      ∃ v, t.views t.upf = some v ∧ (v.Queued s.rules ∨ v.Established s.rules)

def Lost : Prop :=
  t.Elsewhere ∧ ∃ s v, t.mirror = some s ∧ t.views t.upf = some v ∧ v.Lost

/-- Where a session may stand in a run. -/
def Tracked : Prop := t.Agrees ∨ t.Lost

variable {t} {s : Session} {v v' : View}

theorem Agrees.of_some (h : t.Agrees) (hs : t.mirror = some s) :
    t.Elsewhere ∧ ∃ v, t.views t.upf = some v ∧ (v.Queued s.rules ∨ v.Established s.rules) := by
  unfold Agrees at h
  rw [hs] at h
  exact h

theorem Agrees.of_none (h : t.Agrees) (hs : t.mirror = none) :
    ∀ u v, t.views u = some v → v.Vacant := by
  unfold Agrees at h
  rw [hs] at h
  exact h

theorem Tracked.of_none (h : t.Tracked) (hs : t.mirror = none) : t.Agrees := by
  obtain h | ⟨-, s, -, hs', -⟩ := h
  · exact h
  · cases hs.symm.trans hs'

/-- Wherever the session stands, its bridge knows no more than what is there. -/
theorem Tracked.sound (h : t.Tracked) (hv : t.views t.upf = some v) : v.Sound := by
  obtain h | ⟨-, s, v', -, hv', hlost⟩ := h
  · cases hs : t.mirror with
    | none => exact (h.of_none hs _ _ hv).sound
    | some s =>
      obtain ⟨-, v', hv', hq | he⟩ := h.of_some hs
      · cases hv.symm.trans hv'
        exact hq.vacant.sound
      · cases hv.symm.trans hv'
        exact he.sound
  · cases hv.symm.trans hv'
    exact View.sound_of_none hlost.session

theorem Elsewhere.update (h : t.Elsewhere) (s : Option Session) (v : Option View) :
    Elsewhere ⟨s, t.upf, Function.update t.views t.upf v⟩ := by
  intro u v' hv' hu
  have hsame : Function.update t.views t.upf v u = t.views u := Function.update_of_ne hu ..
  exact h u v' (hsame.symm.trans hv') hu

/-- The session has come to other rules, here and at its UPF. -/
theorem agrees_update (h : t.Elsewhere) (hv : v.Queued s.rules ∨ v.Established s.rules) :
    Agrees ⟨some s, t.upf, Function.update t.views t.upf (some v)⟩ :=
  ⟨h.update _ _, v, update_self .., hv⟩

end Standing

/-! ## One operation -/

namespace Manager

variable {m : Manager} {k : ImsiPduKey} {fate : Fate}

/-- What an operation does to the standings: its own session is tracked, and agrees when the
operation succeeds. -/
structure Steps (m : Manager) (k : ImsiPduKey) (r : Manager × Except ManagerError Unit) :
    Prop where
  others : ∀ k', k' ≠ k → r.1.standing k' = m.standing k'
  tracked : (r.1.standing k).Tracked
  agrees : r.2 = .ok () → (r.1.standing k).Agrees

theorem Steps.of_agrees {r : Manager × Except ManagerError Unit}
    (others : ∀ k', k' ≠ k → r.1.standing k' = m.standing k') (h : (r.1.standing k).Agrees) :
    m.Steps k r :=
  ⟨others, .inl h, fun _ => h⟩

/-- An operation that changes nothing, and fails. -/
theorem Steps.refl {e : ManagerError} (h : (m.standing k).Tracked) : m.Steps k (m, .error e) :=
  ⟨fun _ _ => rfl, h, fun hok => by cases hok⟩

theorem views_link {l : Link} (hl : m.link k = some l) :
    (m.standing k).views (m.standing k).upf = some (l.view k) :=
  congrArg (Option.map fun l : Link => l.view k) hl

/-- The link of a session is sound for it. -/
theorem sound_link {l : Link} (h : (m.standing k).Tracked) (hl : m.link k = some l) :
    (l.view k).Sound :=
  h.sound (views_link hl)

/-- A call on the link of one session does not touch the others. -/
theorem standing_dispatch_ne {k' : ImsiPduKey} {call : Link → Link × Except BridgeError Unit}
    {sessions : ImsiPduKey → Option Session} (hs : sessions k' = m.sessions k')
    (hcall : ∀ l, m.link k = some l → (call l).1.view k' = l.view k') :
    standing ⟨sessions, (m.router.dispatch k call).1⟩ k' = m.standing k' := by
  unfold standing
  dsimp only
  rw [hs, upfOf_dispatch, views_dispatch_eq hcall]

theorem standing_dispatch {l : Link} (call : Link → Link × Except BridgeError Unit)
    (sessions : ImsiPduKey → Option Session) (hl : m.link k = some l) :
    standing ⟨sessions, (m.router.dispatch k call).1⟩ k =
      ⟨sessions k, (m.standing k).upf,
        Function.update (m.standing k).views (m.standing k).upf (some ((call l).1.view k))⟩ := by
  unfold standing
  rw [upfOf_dispatch, views_dispatch hl]

/-- An edit whose call does the same at the UPF. -/
theorem edit_steps {change : Session → Session} {call : Link → Link × Except BridgeError Unit}
    (ht : (m.standing k).Tracked)
    (hne : ∀ l, (l.view k).Sound → ∀ k', k' ≠ k → (call l).1.view k' = l.view k')
    (hok : ∀ s, m.sessions k = some s → (m.standing k).Elsewhere ∧ ∃ l, m.link k = some l ∧
      (((call l).1.view k).Queued (change s).rules ∨
        ((call l).1.view k).Established (change s).rules)) :
    m.Steps k (m.edit k change call) := by
  unfold edit
  split
  case h_1 => exact .refl ht
  case h_2 s hs =>
    obtain ⟨helse, l, hl, hview⟩ := hok s hs
    refine .of_agrees (fun k' hk' => ?_) ?_
    · refine standing_dispatch_ne (update_of_ne hk' ..) fun l' hl' => ?_
      exact hne l' (sound_link ht hl') k' hk'
    · refine (congrArg Standing.Agrees (standing_dispatch _ _ hl)).mpr ?_
      rw [show (m.putSession k (change s)).sessions k = some (change s) from
        update_self ..]
      exact Standing.agrees_update helse hview

end Manager

end MmtCore.Smf
