import Mathlib.Data.Finset.Basic
import MmtCore.Lib.Reach
import MmtCore.Sip.Dialog

/-!
# Dialogs over runs

Beside the dialogs and their manager a run keeps what they are measured against: which dialogs are
held, which were created for the calling side, the Record-Route list of the response that
established or confirmed each, and the numbers of the requests created within it.
-/

namespace MmtCore.Sip

open MmtCore.Lib Function List Option SipDialog DialogManager Nat Finset

/-- What is remembered of a dialog. -/
structure DialogNote where
  uac : Bool
  /-- The Record-Route list of the response that last moved the dialog to Early or Confirmed. -/
  recordRoute : List Bytes
  /-- The CSeq numbers of its requests, the last one first. -/
  issued : List Nat

namespace DialogNote

/-- A response that moves the dialog on from one of the states `before`. -/
def onResponse (n : DialogNote) (d : SipDialog) (before : List DialogState) :
    Option Visit → DialogNote
  | none => n
  | some resp =>
    if d.state ∈ before then { n with recordRoute := getHeaderValues resp (txt "Record-Route") }
    else n

def onCreateRequest (n : DialogNote) (d : SipDialog) : DialogNote :=
  if d.state = .terminated then n else { n with issued := (d.localCSeq + 1) :: n.issued }

end DialogNote

structure DialogRun where
  manager : DialogManager
  note : Ref → DialogNote
  /-- The dialogs that have been added and not been removed. -/
  held : Finset Ref

namespace DialogRun

def new : DialogRun := ⟨.new, fun _ => ⟨false, [], []⟩, ∅⟩

/-- A dialog and its note are written. -/
def put (t : DialogRun) (r : Ref) (d : SipDialog) (n : DialogNote) : DialogRun :=
  ⟨{ t.manager with dialog := update t.manager.dialog r (some d) },
    update t.note r n, t.held⟩

def create (t : DialogRun) (r : Ref) (d : SipDialog) (uac : Bool) : DialogRun :=
  match t.manager.dialog r with
  | some _ => t
  | none => t.put r d ⟨uac, [], []⟩

def handle (t : DialogRun) (r : Ref) (f : SipDialog → SipDialog)
    (g : SipDialog → DialogNote → DialogNote) : DialogRun :=
  match t.manager.dialog r with
  | none => t
  | some d => if d.stopped then t else t.put r (f d) (g d (t.note r))

/-- Whether `Add` and `Remove` return. -/
def Answers (t : DialogRun) (r : Ref) : Prop :=
  t.manager.stuck = false ∧ ∃ d ∈ t.manager.dialog r, d.stopped = false
  deriving Decidable

def step (t : DialogRun) : DialogInput → DialogRun
  | .newDialog r callID localURI remoteURI localTag =>
    t.create r (.new callID localURI remoteURI localTag) true
  | .newDialogFromRequest r req requestURI localTag =>
    t.create r (.newFromRequest req requestURI localTag) false
  | .onProvisional r resp =>
    t.handle r (·.onProvisional resp) fun d n => n.onResponse d [.init] resp
  | .on2xx r resp => t.handle r (·.on2xx resp) fun d n => n.onResponse d [.init, .early] resp
  | .onError r => t.handle r (·.onError) fun _ n => n
  | .terminate r => t.handle r (·.terminate) fun _ n => n
  | .createRequest r method generated =>
    t.handle r (fun d => (d.onCreateRequest method generated).1) fun d n => n.onCreateRequest d
  | .add r => ⟨t.manager.add r, t.note, if t.Answers r then insert r t.held else t.held⟩
  | .remove r => ⟨t.manager.remove r, t.note, if t.Answers r then t.held.erase r else t.held⟩

/-- How a dialog may change. -/
structure Moves (d d' : SipDialog) : Prop where
  /-- The state only moves forward. -/
  forward : d.state.rank ≤ d'.state.rank
  /-- Early is entered with a known remote tag. -/
  early : d.state ≠ .early → d'.state = .early → d'.remoteTag ≠ []
  /-- What a confirmed dialog has settled stays. -/
  settled : d.state = .confirmed → d'.remoteTag = d.remoteTag ∧ d'.routeSet = d.routeSet

/-- What is promised of a step. -/
structure Sound (t : DialogRun) (e : DialogInput) : Prop where
  moves : ∀ r d d', t.manager.dialog r = some d → (t.step e).manager.dialog r = some d' →
    Moves d d'
  /-- The calling side takes the Record-Route list in reverse order. -/
  routes : ∀ r d', (t.step e).manager.dialog r = some d' → ((t.step e).note r).uac = true →
    d'.state = .early ∨ d'.state = .confirmed →
    d'.routeSet = ((t.step e).note r).recordRoute.reverse
  increasing : ∀ r, ((t.step e).note r).issued.Pairwise (· > ·)
  /-- A request that is created has the number that is noted. -/
  numbered : ∀ r method generated m, e = .createRequest r method generated →
    t.manager.created e = some m → ∃ n, ((t.step e).note r).issued.head? = some n ∧
      (m.headers.lookup (txt "CSeq")) = some [decimal n ++ [32] ++ method]
  /-- A dialog is found under its identifier exactly while it is held. -/
  found : ∀ id r, (t.step e).manager.get id = some r ↔
    r ∈ (t.step e).held ∧ ∃ d ∈ (t.step e).manager.dialog r, d.dialogID = id

/-- A response leaves the tag of a dialog that is held or confirmed. -/
def TagKeeps (t : DialogRun) (r : Ref) (d : SipDialog) (resp : Visit) : Prop :=
  SipDialog.respTag resp = [] ∨ SipDialog.respTag resp = d.remoteTag ∨
    (r ∉ t.held ∧ d.state ≠ .confirmed)

/-- A provisional response establishes a dialog with a tag and, for the calling side, no route. -/
def ProvisionalKeeps (t : DialogRun) (r : Ref) (d : SipDialog) (resp : Visit) : Prop :=
  d.stopped = true ∨ d.state = .terminated ∨
    t.TagKeeps r d resp ∧
      (d.state = .init → (SipDialog.respTag resp ≠ [] ∨ d.remoteTag ≠ []) ∧
        ((t.note r).uac = true → getHeaderValues resp (txt "Record-Route") = []))

/-- A 2xx response leaves the routes of a confirmed dialog, and its Record-Route list reads the same
in both directions where it confirms a dialog of the calling side. -/
def FinalKeeps (t : DialogRun) (r : Ref) (d : SipDialog) (resp : Visit) : Prop :=
  let rrs := getHeaderValues resp (txt "Record-Route")
  d.stopped = true ∨ d.state = .terminated ∨
    t.TagKeeps r d resp ∧
      if d.state = .confirmed then rrs = [] ∨ rrs = d.routeSet
      else (t.note r).uac = true → rrs.reverse = rrs

/-- The identifier of the dialog is not that of another one in the index. -/
def IndexKeeps (t : DialogRun) (r : Ref) : Prop :=
  ∀ d ∈ t.manager.dialog r, d.stopped = false ∧ ∀ r' ∈ t.manager.dialogs.lookup d.dialogID, r' = r
  deriving Decidable

def Keeps (t : DialogRun) : DialogInput → Prop
  | .onProvisional r (some resp) => ∀ d ∈ t.manager.dialog r, t.ProvisionalKeeps r d resp
  | .on2xx r (some resp) => ∀ d ∈ t.manager.dialog r, t.FinalKeeps r d resp
  | .add r | .remove r => t.IndexKeeps r
  | _ => True

instance (t : DialogRun) (r : Ref) (d : SipDialog) (resp : Visit) :
    Decidable (t.TagKeeps r d resp) :=
  inferInstanceAs (Decidable (_ ∨ _))

instance (t : DialogRun) (r : Ref) (d : SipDialog) (resp : Visit) :
    Decidable (t.ProvisionalKeeps r d resp) :=
  inferInstanceAs (Decidable (_ ∨ _ ∨ _ ∧ (_ → _ ∧ (_ → _))))

instance (t : DialogRun) (r : Ref) (d : SipDialog) (resp : Visit) :
    Decidable (t.FinalKeeps r d resp) :=
  inferInstanceAs (Decidable (_ ∨ _ ∨ _ ∧ ite _ _ _))

instance (t : DialogRun) (e : DialogInput) : Decidable (t.Keeps e) :=
  match e with
  | .onProvisional r (some resp) =>
    inferInstanceAs (Decidable (∀ d ∈ t.manager.dialog r, t.ProvisionalKeeps r d resp))
  | .on2xx r (some resp) =>
    inferInstanceAs (Decidable (∀ d ∈ t.manager.dialog r, t.FinalKeeps r d resp))
  | .add r | .remove r => inferInstanceAs (Decidable (t.IndexKeeps r))
  | .onProvisional _ none | .on2xx _ none | .newDialog .. | .newDialogFromRequest .. | .onError _
  | .terminate _ | .createRequest .. => inferInstanceAs (Decidable True)

/-! ## Dialogs one by one -/

/-- What is known of a dialog and its note. -/
structure DialogOK (n : DialogNote) (d : SipDialog) : Prop where
  unrouted : n.uac = true → d.state = .init ∨ d.state = .early → d.routeSet = []
  early : n.uac = true → d.state = .early → n.recordRoute = []
  routed : n.uac = true → d.state = .confirmed → d.routeSet = n.recordRoute.reverse
  decreasing : n.issued.Pairwise (· > ·)
  bounded : ∀ k ∈ n.issued, k ≤ d.localCSeq

theorem Moves.refl (d : SipDialog) : Moves d d :=
  ⟨le_refl _, fun h h' => absurd h' h, fun _ => ⟨rfl, rfl⟩⟩

section

variable {t : DialogRun} {r : Ref} {d : SipDialog} {n : DialogNote} {resp : Visit}

theorem learnTag_eq (d : SipDialog) (resp : Visit) : d.learnTag resp =
    { d with
      remoteTag := if SipDialog.respTag resp = [] then d.remoteTag else SipDialog.respTag resp } := by
  unfold learnTag
  split <;> rfl

/-- A dialog that is held or confirmed learns nothing. -/
theorem TagKeeps.learnTag (h : t.TagKeeps r d resp) :
    (r ∈ t.held → (d.learnTag resp).dialogID = d.dialogID) ∧ (d.state = .confirmed →
      (if SipDialog.respTag resp = [] then d.remoteTag else SipDialog.respTag resp) =
        d.remoteTag) := by
  rw [learnTag_eq, dialogID, dialogID]
  rcases h with h | h | ⟨hr, hstate⟩
  · simp [h]
  · simp [h]
  · simp [hr, hstate]

theorem DialogOK.created (uac : Bool) (h : uac = true → d.state = .init ∧ d.routeSet = [])
    (hinit : d.state = .init) : DialogOK ⟨uac, [], []⟩ d where
  unrouted hu _ := (h hu).2
  early _ _ := rfl
  routed hu hs := by
    rw [hinit] at hs
    cases hs
  decreasing := List.Pairwise.nil
  bounded := by simp

/-- What an event makes of a dialog that runs, and of its note. -/
structure Handled (t : DialogRun) (r : Ref) (d d' : SipDialog) (n : DialogNote) : Prop where
  moves : Moves d d'
  ok : DialogOK n d'
  running : d'.stopped = d.stopped
  dialogID : r ∈ t.held → d'.dialogID = d.dialogID

theorem Handled.refl (hn : DialogOK n d) : Handled t r d d n :=
  ⟨Moves.refl d, hn, rfl, fun _ => rfl⟩

/-- An error response and `Terminate` end the dialog. -/
theorem Handled.terminate (hn : DialogOK n d) : Handled t r d d.terminate n where
  moves := {
    forward := by
      show d.state.rank ≤ 3
      cases d.state <;> decide
    early := fun _ h => by cases h
    settled := fun _ => ⟨rfl, rfl⟩ }
  ok := {
    unrouted := fun _ h => by rcases h with h | h <;> cases h
    early := fun _ h => by cases h
    routed := fun _ h => by cases h
    decreasing := hn.decreasing
    bounded := hn.bounded }
  running := rfl
  dialogID := fun _ => rfl

theorem Handled.onProvisional (hn : DialogOK (t.note r) d) (hrun : d.stopped = false)
    (hk : t.ProvisionalKeeps r d resp) :
    Handled t r d (d.onProvisional (some resp))
      ((t.note r).onResponse d [.init] (some resp)) := by
  have hnote : d.state ≠ .init → (t.note r).onResponse d [.init] (some resp) = t.note r :=
    fun h => if_neg fun hmem => h (List.mem_singleton.mp hmem)
  by_cases hterm : d.state = .terminated
  · have hd : d.onProvisional (some resp) = d := if_pos hterm
    rw [hd, hnote (by rw [hterm]; decide)]
    exact .refl hn
  obtain hk | hk | ⟨htag, hinit⟩ := hk
  · exact absurd hrun (by rw [hk]; decide)
  · exact absurd hk hterm
  obtain ⟨hid, hkept⟩ := htag.learnTag
  by_cases hstate : d.state = .init
  · -- the response establishes the dialog
    obtain ⟨hknown, hroute⟩ := hinit hstate
    have hd : d.onProvisional (some resp) = { d.learnTag resp with state := .early } :=
      (if_neg hterm).trans (if_pos hstate)
    have hn' : (t.note r).onResponse d [.init] (some resp) =
        { t.note r with recordRoute := getHeaderValues resp (txt "Record-Route") } :=
      if_pos (List.mem_singleton.mpr hstate)
    rw [hd, hn', learnTag_eq]
    refine ⟨⟨?_, fun _ _ => ?_, ?_⟩, ⟨?_, ?_, ?_, hn.decreasing, hn.bounded⟩, rfl,
      fun hheld => learnTag_eq d resp ▸ hid hheld⟩
    · rw [hstate]
      exact zero_le _
    · grind
    · intro h
      rw [hstate] at h
      cases h
    · exact fun hu _ => hn.unrouted hu (.inl hstate)
    · exact fun hu _ => hroute hu
    · intro _ h
      cases h
  · -- a further response at most changes the tag
    have hd : d.onProvisional (some resp) = d.learnTag resp :=
      (if_neg hterm).trans (if_neg hstate)
    rw [hd, hnote hstate, learnTag_eq]
    exact ⟨⟨le_refl _, fun h h' => absurd h' h, fun h => ⟨hkept h, rfl⟩⟩,
      ⟨hn.unrouted, hn.early, hn.routed, hn.decreasing, hn.bounded⟩, rfl,
      fun hheld => learnTag_eq d resp ▸ hid hheld⟩

theorem Handled.on2xx (hn : DialogOK (t.note r) d) (hrun : d.stopped = false)
    (hk : t.FinalKeeps r d resp) :
    Handled t r d (d.on2xx (some resp))
      ((t.note r).onResponse d [.init, .early] (some resp)) := by
  by_cases hterm : d.state = .terminated
  · have hd : d.on2xx (some resp) = d := if_pos hterm
    have hn' : (t.note r).onResponse d [.init, .early] (some resp) = t.note r :=
      if_neg (by rw [hterm]; decide)
    rw [hd, hn']
    exact .refl hn
  obtain hk | hk | ⟨htag, hroutes⟩ := hk
  · exact absurd hrun (by rw [hk]; decide)
  · exact absurd hk hterm
  have hd : d.on2xx (some resp) = { d.learnTag resp with
      routeSet := routesOf resp d.routeSet, state := .confirmed } := if_neg hterm
  obtain ⟨hid, hkept⟩ := htag.learnTag
  rw [learnTag_eq] at hd hid
  by_cases hstate : d.state = .confirmed
  · -- a repeated or forked response
    have hroute : routesOf resp d.routeSet = d.routeSet := by
      grind [routesOf]
    have hn' : (t.note r).onResponse d [.init, .early] (some resp) = t.note r :=
      if_neg (by rw [hstate]; decide)
    rw [hd, hn', hroute]
    refine ⟨⟨?_, ?_, ?_⟩, ⟨?_, ?_, ?_, hn.decreasing, hn.bounded⟩, rfl, hid⟩
    · rw [hstate]
    · intro _ h
      cases h
    · exact fun h => ⟨hkept h, rfl⟩
    · intro _ h
      rcases h with h | h <;> cases h
    · intro _ h
      cases h
    · exact fun hu _ => hn.routed hu hstate
  · -- the response confirms the dialog
    have hmem : d.state ∈ [DialogState.init, .early] := by
      revert hterm hstate
      cases d.state <;> decide
    have hn' : (t.note r).onResponse d [.init, .early] (some resp) =
        { t.note r with recordRoute := getHeaderValues resp (txt "Record-Route") } :=
      if_pos hmem
    rw [if_neg hstate] at hroutes
    rw [hd, hn']
    refine ⟨⟨?_, ?_, ?_⟩, ⟨?_, ?_, ?_, hn.decreasing, hn.bounded⟩, rfl, hid⟩
    · change d.state.rank ≤ 2
      revert hterm
      cases d.state <;> decide
    · intro _ h
      cases h
    · exact fun h => absurd h hstate
    · intro _ h
      rcases h with h | h <;> cases h
    · intro _ h
      cases h
    · intro hu _
      have hnil : d.routeSet = [] := hn.unrouted hu (by simpa using hmem)
      rw [hroutes hu, hnil]
      simp [routesOf]

theorem Handled.onCreateRequest (hn : DialogOK n d) (method generated : Bytes) :
    Handled t r d (d.onCreateRequest method generated).1 (n.onCreateRequest d) := by
  unfold SipDialog.onCreateRequest DialogNote.onCreateRequest
  split
  · exact .refl hn
  · refine ⟨⟨le_refl _, fun h h' => absurd h' h, fun _ => ⟨rfl, rfl⟩⟩,
      ⟨hn.unrouted, hn.early, hn.routed, ?_, ?_⟩, rfl, fun _ => rfl⟩
    · exact pairwise_cons.mpr ⟨fun k hk => lt_succ_of_le (hn.bounded k hk), hn.decreasing⟩
    · intro k hk
      rcases mem_cons.mp hk with rfl | hk
      · exact le_refl _
      · exact le_succ_of_le (hn.bounded k hk)

end

/-! ## The invariant -/

structure Inv (t : DialogRun) : Prop where
  ok : ∀ r d, t.manager.dialog r = some d → DialogOK (t.note r) d
  unused : ∀ r, t.manager.dialog r = none → (t.note r).issued = []
  stuck : t.manager.stuck = false
  running : ∀ r ∈ t.held, ∃ d ∈ t.manager.dialog r, d.stopped = false
  found : ∀ id r, t.manager.dialogs.lookup id = some r ↔
    r ∈ t.held ∧ ∃ d ∈ t.manager.dialog r, d.dialogID = id

theorem Inv.new : Inv new where
  ok _ _ h := by cases h
  unused _ _ := rfl
  stuck := rfl
  running r hr := absurd hr (notMem_empty r)
  found id r := by
    constructor
    · intro h
      cases h
    · intro h
      exact absurd h.1 (notMem_empty r)

variable {t : DialogRun} {r : Ref}

theorem put_dialog (d : SipDialog) (n : DialogNote) (r' : Ref) :
    (t.put r d n).manager.dialog r' = if r' = r then some d else t.manager.dialog r' :=
  update_apply ..

theorem put_note (d : SipDialog) (n : DialogNote) (r' : Ref) :
    (t.put r d n).note r' = if r' = r then n else t.note r' :=
  update_apply ..

theorem Inv.put (hI : Inv t) {d' : SipDialog} {n : DialogNote} (hok : DialogOK n d')
    (hheld : r ∈ t.held → ∃ d, t.manager.dialog r = some d ∧ d'.stopped = d.stopped ∧
      d'.dialogID = d.dialogID) : Inv (t.put r d' n) where
  ok r' d hd := by
    rw [put_dialog] at hd
    rw [put_note]
    split at hd
    · case isTrue h =>
      rw [if_pos h, ← some.inj hd]
      exact hok
    · case isFalse h =>
      rw [if_neg h]
      exact hI.ok r' d hd
  unused r' hr' := by
    rw [put_dialog] at hr'
    rw [put_note]
    split at hr'
    · cases hr'
    · case isFalse h =>
      rw [if_neg h]
      exact hI.unused r' hr'
  stuck := hI.stuck
  running r' hr' := by
    rw [put_dialog]
    obtain ⟨d, hd, hrun⟩ := hI.running r' hr'
    split
    · case isTrue h =>
      subst h
      obtain ⟨d₀, hd₀, hstop, -⟩ := hheld hr'
      obtain rfl := some.inj (hd.symm.trans hd₀)
      exact ⟨d', rfl, hstop.trans hrun⟩
    · exact ⟨d, hd, hrun⟩
  found id r' := by
    rw [put_dialog]
    change t.manager.dialogs.lookup id = some r' ↔ r' ∈ t.held ∧ _
    rw [hI.found]
    refine and_congr_right fun hr' => ?_
    split
    · case isTrue h =>
      subst h
      obtain ⟨d₀, hd₀, -, hid⟩ := hheld hr'
      rw [hd₀]
      constructor
      · rintro ⟨d, hd, rfl⟩
        obtain rfl := some.inj hd
        exact ⟨d', rfl, hid⟩
      · rintro ⟨d, hd, rfl⟩
        obtain rfl := some.inj hd
        exact ⟨d₀, rfl, hid.symm⟩
    · rfl

variable {d : SipDialog} {uac : Bool} {f : SipDialog → SipDialog}
  {g : SipDialog → DialogNote → DialogNote} {e : DialogInput}

theorem Inv.create (hI : Inv t) (hinit : d.state = .init) (hroute : uac = true → d.routeSet = []) :
    Inv (t.create r d uac) := by
  unfold DialogRun.create
  split
  · exact hI
  · case h_2 hnone =>
    refine hI.put (.created uac (fun hu => ⟨hinit, hroute hu⟩) hinit) fun hr => ?_
    obtain ⟨d₀, hd₀, -⟩ := hI.running r hr
    rw [hnone] at hd₀
    cases hd₀

/-- An event that a dialog handles well. -/
theorem Inv.handle (hI : Inv t) (h : ∀ d, t.manager.dialog r = some d → d.stopped = false →
      Handled t r d (f d) (g d (t.note r))) : Inv (t.handle r f g) := by
  unfold DialogRun.handle
  split
  · exact hI
  · case h_2 d hd =>
    split
    · exact hI
    · case isFalse hstop =>
      have hd' := h d hd (eq_false_of_ne_true hstop)
      exact hI.put hd'.ok fun hr => ⟨d, hd, hd'.running, hd'.dialogID hr⟩

theorem moves_handle (h : ∀ d, t.manager.dialog r = some d → d.stopped = false →
      Handled t r d (f d) (g d (t.note r))) (r' : Ref) (d d' : SipDialog)
    (hd : t.manager.dialog r' = some d) (hd' : (t.handle r f g).manager.dialog r' = some d') :
    Moves d d' := by
  have hsame : t.manager.dialog r' = some d' → Moves d d' := by
    intro hd'
    obtain rfl := some.inj (hd.symm.trans hd')
    exact .refl d
  unfold DialogRun.handle at hd'
  split at hd'
  · exact hsame hd'
  · case h_2 d₀ hd₀ =>
    split at hd'
    · exact hsame hd'
    · case isFalse hstop =>
      rw [put_dialog] at hd'
      split at hd'
      · case isTrue heq =>
        subst heq
        obtain rfl := some.inj (hd.symm.trans hd₀)
        rw [← some.inj hd']
        exact (h d hd₀ (eq_false_of_ne_true hstop)).moves
      · exact hsame hd'

theorem moves_create {d₀ : SipDialog} (r' : Ref) (d d' : SipDialog)
    (hd : t.manager.dialog r' = some d) (hd' : (t.create r d₀ uac).manager.dialog r' = some d') :
    Moves d d' := by
  have hsame : t.manager.dialog r' = some d' → Moves d d' := by
    intro hd'
    obtain rfl := some.inj (hd.symm.trans hd')
    exact .refl d
  grind [DialogRun.create, put_dialog]

theorem not_answers (hd : t.manager.dialog r = none) : ¬ t.Answers r := by
  rintro ⟨-, d, hd', -⟩
  rw [hd] at hd'
  cases hd'

theorem add_of_none (hd : t.manager.dialog r = none) : t.step (.add r) = t := by
  have hadd : t.manager.add r = t.manager := by
    unfold add
    rw [hd]
  change (⟨t.manager.add r, t.note,
    if t.Answers r then insert r t.held else t.held⟩ : DialogRun) = t
  rw [hadd, if_neg (not_answers hd)]

theorem remove_of_none (hd : t.manager.dialog r = none) : t.step (.remove r) = t := by
  have hremove : t.manager.remove r = t.manager := by
    unfold remove
    rw [hd]
  change (⟨t.manager.remove r, t.note,
    if t.Answers r then t.held.erase r else t.held⟩ : DialogRun) = t
  rw [hremove, if_neg (not_answers hd)]

section

variable (hstuck : t.manager.stuck = false) (hd : t.manager.dialog r = some d)
  (hstop : d.stopped = false)
include hd hstop hstuck

theorem add_of_some :
    t.step (.add r) = ⟨{ t.manager with dialogs := t.manager.dialogs.insert d.dialogID r }, t.note,
      insert r t.held⟩ := by
  have hadd : t.manager.add r =
      { t.manager with dialogs := t.manager.dialogs.insert d.dialogID r } := by
    unfold add
    rw [hd]
    simp only [hstuck, hstop, Bool.false_eq_true, if_false]
  have hyes : t.Answers r := ⟨hstuck, d, hd, hstop⟩
  change (⟨t.manager.add r, t.note,
    if t.Answers r then insert r t.held else t.held⟩ : DialogRun) = _
  rw [hadd, if_pos hyes]

theorem remove_of_some : t.step (.remove r) = ⟨{ t.manager with
          dialogs := t.manager.dialogs.erase d.dialogID
          dialog := update t.manager.dialog r (some { d with stopped := true }) },
        t.note, t.held.erase r⟩ := by
  have hremove : t.manager.remove r =
      { t.manager with
        dialogs := t.manager.dialogs.erase d.dialogID
        dialog := update t.manager.dialog r (some { d with stopped := true }) } := by
    unfold remove
    rw [hd]
    simp only [hstuck, hstop, Bool.false_eq_true, if_false]
  have hyes : t.Answers r := ⟨hstuck, d, hd, hstop⟩
  change (⟨t.manager.remove r, t.note,
    if t.Answers r then t.held.erase r else t.held⟩ : DialogRun) = _
  rw [hremove, if_pos hyes]

theorem remove_dialog (r' : Ref) : (t.step (.remove r)).manager.dialog r' =
      if r' = r then some { d with stopped := true } else t.manager.dialog r' := by
  rw [remove_of_some hstuck hd hstop]
  exact update_apply ..

end

theorem Inv.add (hI : Inv t) (hk : t.IndexKeeps r) : Inv (t.step (.add r)) := by
  cases hd : t.manager.dialog r with
  | none =>
    rw [add_of_none hd]
    exact hI
  | some d =>
    obtain ⟨hstop, hother⟩ := hk d hd
    rw [add_of_some hI.stuck hd hstop]
    refine ⟨hI.ok, hI.unused, hI.stuck, ?_, ?_⟩
    · intro r' hr'
      rcases mem_insert.mp hr' with rfl | hr'
      · exact ⟨d, hd, hstop⟩
      · exact hI.running r' hr'
    · intro id r'
      rw [mem_insert]
      by_cases hid : id = d.dialogID
      · subst hid
        rw [AList.lookup_insert]
        constructor
        · grind
        · rintro ⟨hr', hfound⟩
          rcases hr' with rfl | hr'
          · rfl
          · rw [hother r' ((hI.found _ r').mpr ⟨hr', hfound⟩)]
      · rw [AList.lookup_insert_ne hid, hI.found]
        grind

theorem Inv.remove (hI : Inv t) (hk : t.IndexKeeps r) : Inv (t.step (.remove r)) := by
  cases hd : t.manager.dialog r with
  | none =>
    rw [remove_of_none hd]
    exact hI
  | some d =>
    obtain ⟨hstop, hother⟩ := hk d hd
    have hstep := remove_of_some hI.stuck hd hstop
    have hdialog := remove_dialog hI.stuck hd hstop
    refine ⟨?_, ?_, ?_, ?_, ?_⟩
    · intro r' d' hd'
      rw [hdialog] at hd'
      split at hd'
      · case isTrue heq =>
        subst heq
        have hok := hI.ok r' d hd
        rw [← some.inj hd', hstep]
        exact ⟨hok.unrouted, hok.early, hok.routed, hok.decreasing, hok.bounded⟩
      · rw [hstep]
        exact hI.ok r' d' hd'
    · intro r' hr'
      rw [hdialog] at hr'
      split at hr'
      · cases hr'
      · rw [hstep]
        exact hI.unused r' hr'
    · rw [hstep]
      exact hI.stuck
    · intro r' hr'
      rw [hstep] at hr'
      obtain ⟨hne, hmem⟩ := mem_erase.mp hr'
      rw [hdialog, if_neg hne]
      exact hI.running r' hmem
    · intro id r'
      rw [hdialog, hstep]
      rw [AssocMap.lookup_erase_eq, mem_erase]
      by_cases hid : id = d.dialogID
      · subst hid
        rw [if_pos rfl]
        constructor
        · intro h
          cases h
        · rintro ⟨⟨hne, hr'⟩, hfound⟩
          rw [if_neg hne] at hfound
          exact absurd (hother r' ((hI.found _ r').mpr ⟨hr', hfound⟩)) hne
      · rw [if_neg hid, hI.found]
        constructor
        · grind
        · simp_all

/-! ## Every step -/

/-- An event that a dialog handles well, the functions given. -/
theorem Inv.handled (hI : Inv t) (f : SipDialog → SipDialog)
    (g : SipDialog → DialogNote → DialogNote)
    (h : ∀ d, t.manager.dialog r = some d → d.stopped = false →
      Handled t r d (f d) (g d (t.note r))) :
    Inv (t.handle r f g) ∧ ∀ r' d d', t.manager.dialog r' = some d →
      (t.handle r f g).manager.dialog r' = some d' → Moves d d' :=
  ⟨hI.handle h, moves_handle h⟩

/-- What a step that meets the condition makes of each dialog. -/
theorem Inv.moves (hI : Inv t) (hk : t.Keeps e) :
    Inv (t.step e) ∧ ∀ r d d', t.manager.dialog r = some d →
      (t.step e).manager.dialog r = some d' → Moves d d' := by
  cases e with
  | newDialog r callID localURI remoteURI localTag =>
    exact ⟨hI.create rfl fun _ => rfl, moves_create⟩
  | newDialogFromRequest r req requestURI localTag =>
    exact ⟨hI.create rfl fun h => (by cases h), moves_create⟩
  | onProvisional r resp =>
    refine hI.handled (·.onProvisional resp) (fun d n => n.onResponse d [.init] resp) ?_
    intro d hd hrun
    cases resp with
    | none => exact .refl (hI.ok r d hd)
    | some resp => exact .onProvisional (hI.ok r d hd) hrun (hk d hd)
  | on2xx r resp =>
    refine hI.handled (·.on2xx resp) (fun d n => n.onResponse d [.init, .early] resp) ?_
    intro d hd hrun
    cases resp with
    | none => exact .refl (hI.ok r d hd)
    | some resp => exact .on2xx (hI.ok r d hd) hrun (hk d hd)
  | onError r =>
    exact hI.handled (·.onError) (fun _ n => n) fun d hd _ => .terminate (hI.ok r d hd)
  | terminate r =>
    exact hI.handled (·.terminate) (fun _ n => n) fun d hd _ => .terminate (hI.ok r d hd)
  | createRequest r method generated =>
    exact hI.handled (fun d => (d.onCreateRequest method generated).1)
      (fun d n => n.onCreateRequest d)
      fun d hd _ => .onCreateRequest (hI.ok r d hd) method generated
  | add r =>
    refine ⟨hI.add hk, fun r' d d' hd hd' => ?_⟩
    have hsame : (t.step (.add r)).manager.dialog = t.manager.dialog := by
      cases hr : t.manager.dialog r with
      | none => rw [add_of_none hr]
      | some d₀ => rw [add_of_some hI.stuck hr (hk d₀ hr).1]
    rw [hsame] at hd'
    obtain rfl := some.inj (hd.symm.trans hd')
    exact .refl d
  | remove r =>
    refine ⟨hI.remove hk, fun r' d d' hd hd' => ?_⟩
    cases hr : t.manager.dialog r with
    | none =>
      rw [remove_of_none hr] at hd'
      obtain rfl := some.inj (hd.symm.trans hd')
      exact .refl d
    | some d₀ =>
      rw [remove_dialog hI.stuck hr (hk d₀ hr).1] at hd'
      split at hd'
      · case isTrue heq =>
        subst heq
        obtain rfl := some.inj (hd.symm.trans hr)
        rw [← some.inj hd']
        exact ⟨le_refl _, fun h h' => absurd h' h, fun _ => ⟨rfl, rfl⟩⟩
      · obtain rfl := some.inj (hd.symm.trans hd')
        exact .refl d

/-- The number of a request that is created is noted. -/
theorem numbered {m : SipMessage} {method generated : Bytes}
    (he : e = .createRequest r method generated) (hm : t.manager.created e = some m) :
    ∃ n, ((t.step e).note r).issued.head? = some n ∧
      m.headers.lookup (txt "CSeq") = some [decimal n ++ [32] ++ method] := by
  subst he
  unfold created at hm
  dsimp only at hm
  split at hm
  · cases hm
  · case h_2 d hd =>
    split at hm
    · cases hm
    · case isFalse hstop =>
      unfold onCreateRequest at hm
      split at hm
      · cases hm
      · case isFalse hstate =>
        obtain rfl := some.inj hm
        have hstep : t.step (.createRequest r method generated) =
            t.put r (d.onCreateRequest method generated).1 ((t.note r).onCreateRequest d) := by
          change t.handle r (fun d => (d.onCreateRequest method generated).1)
            (fun d n => n.onCreateRequest d) = _
          unfold DialogRun.handle
          rw [hd]
          exact if_neg hstop
        refine ⟨d.localCSeq + 1, ?_, d.request_cseq _ method generated⟩
        simp_all [put_note, DialogNote.onCreateRequest]

theorem Inv.sound (hI : Inv t) (hk : t.Keeps e) : Sound t e := by
  obtain ⟨hI', hmoves⟩ := hI.moves hk
  refine ⟨hmoves, ?_, ?_, fun r method generated m he hm => numbered he hm, ?_⟩
  · intro r d' hd' hu hstate
    have hok := hI'.ok r d' hd'
    rcases hstate with hstate | hstate
    · rw [hok.unrouted hu (.inr hstate), hok.early hu hstate]
      rfl
    · exact hok.routed hu hstate
  · intro r
    cases hd : (t.step e).manager.dialog r with
    | none =>
      rw [hI'.unused r hd]
      exact List.Pairwise.nil
    | some d => exact (hI'.ok r d hd).decreasing
  · intro id r
    unfold DialogManager.get
    rw [hI'.stuck]
    exact hI'.found id r

/-- Every run whose steps meet the condition keeps what is promised of dialogs. -/
theorem dialogs_sound (es : List DialogInput) (h : Meets step Keeps new es) :
    Meets step Sound new es :=
  h.imp (fun _ _ hI hk => ⟨hI.sound hk, (hI.moves hk).1⟩) Inv.new

/-! ## Two runs -/

/-- A response with a To tag and a Record-Route list. -/
def response (tag : Bytes) (recordRoute : List Bytes) : Visit :=
  [⟨txt "To", [txt "<sip:b@ims>;tag=" ++ tag]⟩, ⟨txt "Record-Route", recordRoute⟩]

/-- A call that rings, is answered twice and ends; it is held once the tag is known. -/
def answered : List DialogInput :=
  [.newDialog 0 (txt "c") (txt "sip:a@ims") (txt "sip:b@ims") (txt "x"),
    .onProvisional 0 (some (response (txt "y") [])), .add 0,
    .on2xx 0 (some (response (txt "y") [txt "p"])), .createRequest 0 (txt "INFO") [],
    .on2xx 0 (some (response (txt "y") [txt "p"])), .createRequest 0 (txt "BYE") [],
    .terminate 0, .remove 0]

theorem dialogs_sound_answered :
    Meets step Keeps new answered ∧ ((run step new answered).note 0).issued = [2, 1] ∧
      Meets step Sound new answered := by
  have h : Meets step Keeps new answered := by decide
  exact ⟨h, by decide, dialogs_sound answered h⟩

/-- The tag is learned after the dialog has been indexed. -/
def indexedEarly : List DialogInput :=
  [.newDialog 0 (txt "c") (txt "sip:a@ims") (txt "sip:b@ims") (txt "x"), .add 0] ++
    [.onProvisional 0 (some (response (txt "y") []))]

theorem not_dialogs_sound : ¬ ∀ es : List DialogInput, Meets step Sound new es := by
  intro h
  obtain ⟨hlast, -⟩ := (h indexedEarly).of_append
  have hfound := (hlast.found (txt "c", txt "x", txt "y") 0).mpr
    ⟨by decide, by decide⟩
  revert hfound
  decide

end DialogRun

end MmtCore.Sip
