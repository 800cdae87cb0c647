import Mathlib.Algebra.Order.BigOperators.Group.List
import Mathlib.Algebra.Order.Group.Nat
import MmtCore.Lib.KeyedRows
import MmtCore.Pfcp.PfdManagement

/-!
# What the anchors cache after a push

An anchor that accepts a push has the applications of that push, unless it still has one that went
away in an earlier push it missed: the SMF takes back only what was in the push just before.
-/

namespace MmtCore.Pfcp

open MmtCore.Lib Function List

/-! ## Encoding and decoding of a rule -/

/-- The rule as an anchor is to have it; `none` if it cannot be encoded. -/
def PFDRule.parsed (r : PFDRule) : Option ParsedPFD :=
  if r.pattern = [] then none
  else
    (pfdContent r.detectionType r.pattern).map fun (flag, content) =>
      ⟨if flag = flagDN then .dn else .fd, content⟩

theorem beNat_beBytes_two {n : Nat} (h : n < 65536) : beNat (beBytes 2 n) = n := by
  simp only [beBytes, beNat, nil_append, cons_append, foldl_cons, foldl_nil,
    UInt8.toNat_ofNat']
  omega

theorem length_beBytes_two (n : Nat) : (beBytes 2 n).length = 2 := rfl

theorem readField_field {flag : UInt8} {content : List UInt8} (h : content.length < 65536) :
    readField ([flag, 0x00] ++ beBytes 2 content.length ++ content) 2
      = (4 + content.length, some content) := by
  unfold readField
  have hlen : ([flag, 0x00] ++ beBytes 2 content.length ++ content).length
      = 4 + content.length := by
    simp [length_beBytes_two]
    omega
  have htake : (([flag, 0x00] ++ beBytes 2 content.length ++ content).drop 2).take 2
      = beBytes 2 content.length := rfl
  have hdrop : ([flag, 0x00] ++ beBytes 2 content.length ++ content).drop (2 + 2) = content := rfl
  rw [hlen, htake, beNat_beBytes_two h, hdrop, if_neg (by omega), if_neg (by omega),
    take_length]

/-- Every type of rule has one of two flags. -/
theorem pfdContent_flag {dt : String} {pat content : List UInt8} {flag : UInt8}
    (h : pfdContent dt pat = some (flag, content)) : flag = flagDN ∨ flag = flagFD := by
  unfold pfdContent at h
  grind

/-- An encoded rule comes back as it was meant, if its text fits the length field. -/
theorem decode_encode {r : PFDRule} {body : List UInt8}
    (h : r.body = some body) (hlen : body.length < 65536) :
    decodePFDContents body = r.parsed := by
  unfold PFDRule.body encodePFDContents at h
  unfold PFDRule.parsed
  split at h
  · cases h
  · rename_i hp
    rw [if_neg hp]
    obtain ⟨⟨flag, content⟩, hc, rfl⟩ := Option.map_eq_some_iff.1 h
    rw [hc]
    have hfit : content.length < 65536 := by
      rw [length_append] at hlen
      omega
    have hread := @readField_field flag content hfit
    change some (decodeFields ([flag, 0x00] ++ beBytes 2 content.length ++ content) flag _ 2) = _
    rcases pfdContent_flag hc with rfl | rfl
    · rw [decodeFields, if_neg (by decide), decodeFields, if_neg (by decide), decodeFields,
        if_pos (by decide), hread]
      rfl
    · rw [decodeFields, if_pos (by decide), hread]
      rfl

theorem parsed_none {r : PFDRule} (h : r.body = none) :
    r.parsed = none := by
  simp_all [PFDRule.body, encodePFDContents, PFDRule.parsed]

/-! ## Grouping -/

/-! ## What a request leaves in a cache -/

/-- The last entry for an application decides; without one the cache is as it was. -/
theorem foldl_storeApp_of_mem {req : PfdRequest} {cache : PfdCache} {id : AppID}
    {v : Option (List ParsedPFD)} (hv : ∀ app ∈ req, app.applicationID = id →
      (if parsedPFDs app = [] then none else some (parsedPFDs app)) = v)
    (hid : id ∈ req.map (·.applicationID) ∨ cache id = v) : req.foldl storeApp cache id = v := by
  induction req generalizing cache with
  | nil => exact hid.resolve_left (by simp)
  | cons app req ih =>
    rw [foldl_cons]
    refine ih (fun a ha => hv a (mem_cons_of_mem _ ha)) ?_
    by_cases happ : app.applicationID = id
    · simp_all [storeApp]
    · simp_all [storeApp, Ne.symm]

theorem foldl_storeApp_of_not_mem {req : PfdRequest} {cache : PfdCache} {id : AppID}
    (hid : id ∉ req.map (·.applicationID)) : req.foldl storeApp cache id = cache id := by
  induction req generalizing cache with
  | nil => rfl
  | cons app req ih =>
    simp_all [storeApp]

/-- What an application listed in a request gets does not depend on the cache. -/
theorem foldl_storeApp_congr {req : PfdRequest} {cache cache' : PfdCache} {id : AppID}
    (hid : id ∈ req.map (·.applicationID)) :
    req.foldl storeApp cache id = req.foldl storeApp cache' id := by
  induction req generalizing cache cache' with
  | nil => cases hid
  | cons app req ih =>
    rw [foldl_cons, foldl_cons]
    by_cases hin : id ∈ req.map (·.applicationID)
    · exact ih hin
    · rw [foldl_storeApp_of_not_mem hin, foldl_storeApp_of_not_mem hin]
      simp_all [storeApp]

/-- A request received twice does what it does once. -/
theorem handlePFDManagement_idem (cache : PfdCache) (req : PfdRequest) :
    handlePFDManagement (handlePFDManagement cache req) req = handlePFDManagement cache req := by
  unfold handlePFDManagement
  by_cases hreq : req = []
  · rw [if_pos hreq, if_pos hreq]
  · rw [if_neg hreq, if_neg hreq]
    funext id
    by_cases hin : id ∈ req.map (·.applicationID)
    · exact foldl_storeApp_congr hin
    · exact foldl_storeApp_of_not_mem hin

/-! ## The request of a push -/

/-- What an anchor is to cache after a push of these applications. -/
def pushedPFDs (groups : List AppPFDs) : PfdCache := fun id =>
  match groups.find? (·.appID = id) with
  | none => none
  | some g =>
    let parsed := g.rules.filterMap PFDRule.parsed
    if parsed = [] then none else some parsed

section Request

variable {groups : List AppPFDs} {pushSet : List AppID} {id : AppID}

/-- The rules of an application arrive in order. -/
theorem parsedPFDs_encode {g : AppPFDs} (hsize : (encodeApplicationIDsPFDs g).size < 65536) :
    parsedPFDs (encodeApplicationIDsPFDs g) = g.rules.filterMap PFDRule.parsed := by
  obtain ⟨appID, rules⟩ := g
  unfold ApplicationIDsPFDs.size encodeApplicationIDsPFDs at hsize
  unfold parsedPFDs encodeApplicationIDsPFDs
  induction rules with
  | nil => rfl
  | cons r rules ih =>
    cases he : r.body with
    | none =>
      simp_all [parsed_none]
    | some body =>
      rw [filterMap_cons_some he, map_cons, map_cons, sum_cons,
        map_singleton, sum_singleton] at hsize
      have hdec := decode_encode he (by omega)
      grind

theorem size_le_of_mem {req : PfdRequest} {app : ApplicationIDsPFDs} (h : app ∈ req) :
    app.size ≤ PfdRequest.size req := by
  unfold PfdRequest.size
  have hle := single_le_sum (l := req.map ApplicationIDsPFDs.size) (fun _ _ => Nat.zero_le _)
    _ (mem_map_of_mem h)
  omega

theorem mem_pushRequest {app : ApplicationIDsPFDs} (h : app ∈ pushRequest pushSet groups) :
    (∃ g ∈ groups, app = encodeApplicationIDsPFDs g) ∨
      ∃ prev ∈ pushSet, prev ∉ nextPushSet groups ∧ app = ⟨prev, []⟩ := by
  obtain ⟨g, hg, rfl⟩ := mem_map.1 h
  rcases mem_append.1 hg with hg | hg
  · exact .inl ⟨g, hg, rfl⟩
  · obtain ⟨prev, hprev, rfl⟩ := mem_map.1 hg
    obtain ⟨hin, hnot⟩ := mem_filter.1 hprev
    exact .inr ⟨prev, hin, of_decide_eq_true hnot, rfl⟩

theorem mem_pushRequest_ids : id ∈ (pushRequest pushSet groups).map (·.applicationID) ↔
    id ∈ groups.map (·.appID) ∨ id ∈ pushSet ∧ id ∉ nextPushSet groups := by
  simp only [pushRequest, removals, encodeApplicationIDsPFDs, map_map, map_append,
    mem_append, mem_map, mem_filter, comp_apply, decide_eq_true_eq]
  grind

theorem pushRequest_eq_nil : pushRequest pushSet groups = [] ↔ groups = [] ∧ pushSet = [] := by
  unfold pushRequest removals
  rw [map_eq_nil_iff, append_eq_nil_iff, map_eq_nil_iff]
  constructor
  · grind [filter_eq_self, nextPushSet]
  · rintro ⟨rfl, rfl⟩
    exact ⟨rfl, rfl⟩

/-- What an anchor has after the request of a push: for the applications listed what was pushed, for
the others what it had. -/
theorem handle_pushRequest {cache : PfdCache} (hnodup : (groups.map (·.appID)).Nodup)
    (hempty : [] ∉ pushSet) (hsize : PfdRequest.size (pushRequest pushSet groups) < 65536)
    (hne : ¬ (groups = [] ∧ pushSet = [])) :
    handlePFDManagement cache (pushRequest pushSet groups) id =
      if id ∈ groups.map (·.appID) ∨ id ∈ pushSet then pushedPFDs groups id else cache id := by
  unfold handlePFDManagement
  rw [if_neg (mt pushRequest_eq_nil.1 hne)]
  by_cases hg : id ∈ groups.map (·.appID)
  · rw [if_pos (.inl hg)]
    refine foldl_storeApp_of_mem (fun app happ hid => ?_) (.inl (mem_pushRequest_ids.2 (.inl hg)))
    rcases mem_pushRequest happ with ⟨g, hmem, rfl⟩ | ⟨prev, hprev, hnot, rfl⟩
    · have hgid : g.appID = id := hid
      have hfit := size_le_of_mem happ
      unfold pushedPFDs
      rw [← hgid, find?_key_of_mem hnodup hmem, parsedPFDs_encode (by omega)]
    · -- an application of the push is not taken back
      have hprev' : prev = id := hid
      refine absurd (mem_filter.2 ⟨hprev' ▸ hg, ?_⟩) hnot
      exact decide_eq_true fun e => hempty (e ▸ hprev)
  · have hnone : pushedPFDs groups id = none := by
      grind [pushedPFDs]
    by_cases hp : id ∈ pushSet
    · rw [if_pos (.inr hp), hnone]
      have hnot : id ∉ nextPushSet groups := fun h => hg (mem_filter.1 h).1
      refine foldl_storeApp_of_mem (fun app happ hid => ?_)
        (.inl (mem_pushRequest_ids.2 (.inr ⟨hp, hnot⟩)))
      rcases mem_pushRequest happ with ⟨g, hmem, rfl⟩ | ⟨prev, -, -, rfl⟩
      · exact absurd (mem_map.2 ⟨g, hmem, hid⟩) hg
      · rfl
    · grind [foldl_storeApp_of_not_mem, mem_pushRequest_ids]

end Request

/-! ## A push -/

section Push

variable {Anchor Host : Type} [DecidableEq Host] {host : Anchor → Host}
  {wire : PfdRequest → Option PfdRequest} {p : Push Anchor} {req req' : PfdRequest}
  {caches : Host → PfdCache} {c : PfdCache} {u : Anchor}

/-- An exchange leaves a process as it was or with the request handled. -/
theorem sendPFDManagement_cases (host : Anchor → Host) (p : Push Anchor)
    (caches : Host → PfdCache) (u : Anchor) (hw : wire req = some req') (h : Host) :
    sendPFDManagement host wire p req caches u h = caches h ∨
      sendPFDManagement host wire p req caches u h = handlePFDManagement (caches h) req' := by
  unfold sendPFDManagement
  rw [hw]
  by_cases hu : h = host u
  · subst hu
    cases p.exchange u with
    | lost => exact .inl rfl
    | unanswered | answered => exact .inr (update_self ..)
  · cases p.exchange u with
    | lost => exact .inl rfl
    | unanswered | answered => exact .inl (update_of_ne hu ..)

theorem foldl_send_kept (hw : wire req = some req') {h : Host} (bridges : List Anchor)
    (hc : caches h = handlePFDManagement c req') :
    bridges.foldl (sendPFDManagement host wire p req) caches h = handlePFDManagement c req' := by
  induction bridges generalizing caches with
  | nil => exact hc
  | cons v bridges ih =>
    rw [foldl_cons]
    grind [handlePFDManagement_idem, sendPFDManagement_cases]

/-- However many anchors share its process, the request is handled once for an anchor it reaches. -/
theorem foldl_send (hw : wire req = some req') {bridges : List Anchor} (hu : u ∈ bridges)
    (hx : p.exchange u = .answered)
    (hc : caches (host u) = c ∨ caches (host u) = handlePFDManagement c req') :
    bridges.foldl (sendPFDManagement host wire p req) caches (host u)
      = handlePFDManagement c req' := by
  induction bridges generalizing caches with
  | nil => cases hu
  | cons v bridges ih =>
    rw [foldl_cons]
    rcases mem_cons.1 hu with rfl | hu
    · refine foldl_send_kept hw bridges ?_
      have hself : sendPFDManagement host wire p req caches u (host u)
          = handlePFDManagement (caches (host u)) req' := by
        unfold sendPFDManagement
        rw [hx, hw]
        exact update_self ..
      grind [handlePFDManagement_idem]
    · grind [handlePFDManagement_idem, sendPFDManagement_cases]

variable (host wire)

/-- Each anchor that accepted the push has its applications and nothing else. -/
def Consistent (s : PfdState Host) (p : Push Anchor) : Prop :=
  ∀ u, Acked wire s p u →
    (pushPFDsToAll host wire s p).pfdCache (host u) = pushedPFDs p.groups

/-- The request of the push fits the length field of a message. -/
def Fits (s : PfdState Host) (p : Push Anchor) : Prop :=
  PfdRequest.size (pushRequest s.pfdPushSet p.groups) < 65536

/-- For each anchor that accepts the push: the request fits, and what the anchor has is in this push
or was in the last one, unless both are empty. -/
def Covers (s : PfdState Host) (p : Push Anchor) : Prop :=
  ∀ u, Acked wire s p u → Fits s p ∧
    (¬ (p.groups = [] ∧ s.pfdPushSet = []) → ∀ id, s.pfdCache (host u) id ≠ none →
      id ∈ p.groups.map (·.appID) ∨ id ∈ s.pfdPushSet)

variable {host wire} {s : PfdState Host}

/-- The cache of an anchor that accepted the push. -/
theorem pfdCache_of_acked (hwire : ∀ req, PfdRequest.size req < 65536 → wire req = some req)
    (hfit : Fits s p) (hack : Acked wire s p u) :
    (pushPFDsToAll host wire s p).pfdCache (host u)
      = handlePFDManagement (s.pfdCache (host u)) (pushRequest s.pfdPushSet p.groups) := by
  obtain ⟨hu, hx, -⟩ := hack
  unfold pushPFDsToAll
  rw [if_neg (ne_nil_of_mem hu)]
  exact foldl_send (hwire _ hfit) hu hx (.inl rfl)

/-- An empty request clears a cache, and nothing was pushed. -/
theorem handle_empty {groups : List AppPFDs} {pushSet : List AppID}
    (he : groups = [] ∧ pushSet = []) :
    handlePFDManagement c (pushRequest pushSet groups) = pushedPFDs groups := by
  rw [pushRequest_eq_nil.2 he, he.1]
  rfl

section

variable (hwire : ∀ req, PfdRequest.size req < 65536 → wire req = some req)
  (hempty : [] ∉ s.pfdPushSet)
include hempty hwire

theorem Covers.consistent (h : Covers host wire s p) : Consistent host wire s p := by
  intro u hack
  obtain ⟨hfit, hcov⟩ := h u hack
  rw [pfdCache_of_acked hwire hfit hack]
  by_cases he : p.groups = [] ∧ s.pfdPushSet = []
  · exact handle_empty he
  · funext id
    rw [handle_pushRequest p.nodup hempty hfit he]
    split
    · rfl
    · grind [pushedPFDs]

theorem Consistent.covers (hfit : Fits s p) (h : Consistent host wire s p) :
    Covers host wire s p := by
  intro u hack
  refine ⟨hfit, fun he id hsome => ?_⟩
  by_contra hout
  have hcache := congrFun (h u hack) id
  rw [pfdCache_of_acked hwire hfit hack, handle_pushRequest p.nodup hempty hfit he, if_neg hout]
    at hcache
  grind [pushedPFDs]

end

theorem pushPFDsToAll_empty (hempty : [] ∉ s.pfdPushSet) :
    [] ∉ (pushPFDsToAll host wire s p).pfdPushSet := by
  unfold pushPFDsToAll
  split
  · exact hempty
  · intro h
    exact absurd rfl (of_decide_eq_true (mem_filter.1 h).2)

/-! ## Main result -/

end Push

/-- The applications "x" and "y", each with one host name. -/
def twoApps : List AppPFDs :=
  [⟨[0x78], [⟨[0x78], "sni", [0x61]⟩]⟩, ⟨[0x79], [⟨[0x79], "sni", [0x62]⟩]⟩]

/-- One anchor: both applications are pushed, then "x" goes away while the anchor is out of reach,
and the same is pushed again. -/
def missedRemoval : List (Push Unit) :=
  [⟨[()], twoApps, by decide, fun _ => .answered⟩,
    ⟨[()], twoApps.drop 1, by decide, fun _ => .lost⟩,
    ⟨[()], twoApps.drop 1, by decide, fun _ => .answered⟩]

/-- The same pushes without the failure. -/
def keptInStep : List (Push Unit) :=
  [⟨[()], twoApps, by decide, fun _ => .answered⟩,
    ⟨[()], twoApps.drop 1, by decide, fun _ => .answered⟩]

end MmtCore.Pfcp
