import MmtCore.Upf.Sni

/-!
# DNS responses

`upf_parse_dns_response` of `upf_dpi.c` and the two functions it has for names: one that passes a
name in its place and one that follows compression pointers and writes the name to a buffer.  Both
stop after a number of labels or pointers, so the parser ends on every packet.  All headers it looks
at lie in the packet; the addresses it copies it does not check.
-/

namespace MmtCore.Upf

open MmtCore.Lib List UInt16 Probe Or

/-- `UPF_DPI_MAX_DOMAIN_LEN`. -/
abbrev upfDpiMaxDomainLen : Nat := 256

/-- `UPF_DPI_MAX_DNS_IPS`. -/
abbrev upfDpiMaxDnsIps : Nat := 8

/-! ## Names -/

/-- `_skip_dns_name` with `k` labels to go of the 65 after which it gives up: the offset behind the
name, an `int`.  `none` is `-1`. -/
def skipDnsName (len : UInt16) : Nat → UInt16 → Probe (Option Nat)
  | 0, _ => pure none
  | k + 1, offset =>
    if offset < len then
      Probe.byte offset.toNat >>= fun labelLen =>
        if labelLen = 0 then pure (some (offset.toNat + 1))
        else if labelLen &&& 0xC0 = 0xC0 then pure (some (offset.toNat + 2))
        else skipDnsName len k (offset + (1 + labelLen.toUInt16))
    else pure none

/-- The inner loop of `_extract_dns_name`: at most `k` bytes from `i` on, into the buffer. -/
def copyLabel (len : UInt16) : Nat → Nat → List UInt8 → Probe (List UInt8)
  | 0, _, buf => pure buf
  | k + 1, i, buf =>
    if i < len.toNat ∧ buf.length < upfDpiMaxDomainLen - 1 then
      Probe.byte i >>= fun c => copyLabel len k (i + 1) (buf ++ [toLower c])
    else pure buf

/-- `_extract_dns_name`: what it leaves in the buffer, also where it returns `-1`.  `none` is for a
loop that has not ended. -/
def extractDnsName (len : UInt16) : Nat → UInt16 → List UInt8 → Nat → Probe (Option (List UInt8))
  | 0, _, _, _ => pure none
  | fuel + 1, cur, buf, jumps =>
    if cur < len ∧ buf.length < upfDpiMaxDomainLen - 1 then
      Probe.byte cur.toNat >>= fun labelLen =>
        if labelLen = 0 then pure (some buf)
        else if labelLen &&& 0xC0 = 0xC0 then
          if cur.toNat + 1 ≥ len.toNat then pure (some buf)
          else
            Probe.byte (cur.toNat + 1) >>= fun low =>
              if jumps + 1 > 10 then pure (some buf)
              else extractDnsName len fuel (be16 (labelLen &&& 0x3F) low) buf (jumps + 1)
        else
          copyLabel len labelLen.toNat (cur + 1).toNat
              (if buf.length > 0 then buf ++ [46] else buf) >>= fun buf =>
            extractDnsName len fuel (cur + 1 + labelLen.toUInt16) buf jumps
    else pure (some buf)

/-! ## The response -/

/-- `upf_dns_result_t`, as long as nothing has been reported the arrays are shorter. -/
structure DnsResult where
  domain : List UInt8
  resolvedIpv4 : List (List UInt8)
  resolvedIpv6 : List (List UInt8)
  ttl : UInt32
deriving DecidableEq

/-- `detected`: an address has been stored. -/
def DnsResult.detected (r : DnsResult) : Bool :=
  !r.resolvedIpv4.isEmpty || !r.resolvedIpv6.isEmpty

/-- The loop over the questions: the offset behind them. -/
def dnsQuestions (len : UInt16) : Nat → UInt16 → Probe (Option UInt16)
  | 0, offset => pure (some offset)
  | k + 1, offset =>
    if offset < len then
      skipDnsName len 65 offset >>= fun nameEnd =>
        nameEnd.elim (pure none) fun nameEnd =>
          dnsQuestions len k (UInt16.ofNat (nameEnd + 4))
    else pure (some offset)

/-- The address of an A or AAAA record whose data starts at `offset`, if there is room for it. -/
def dnsAddress (rtype rdlen offset : UInt16) (r : DnsResult) : Probe DnsResult :=
  if rtype = 1 ∧ rdlen = 4 ∧ r.resolvedIpv4.length < upfDpiMaxDnsIps then
    Probe.bytes offset.toNat 4 >>= fun a =>
      pure { r with resolvedIpv4 := r.resolvedIpv4 ++ [a] }
  else if rtype = 28 ∧ rdlen = 16 ∧ r.resolvedIpv6.length < upfDpiMaxDnsIps then
    Probe.bytes offset.toNat 16 >>= fun a =>
      pure { r with resolvedIpv6 := r.resolvedIpv6 ++ [a] }
  else pure r

/-- The loop over the answers. -/
def dnsAnswers (len : UInt16) : Nat → UInt16 → DnsResult → Probe DnsResult
  | 0, _, r => pure r
  | k + 1, offset, r =>
    if offset.toNat + 10 < len.toNat then
      skipDnsName len 65 offset >>= fun nameEnd =>
        nameEnd.elim (pure r) fun nameEnd =>
          let offset := UInt16.ofNat nameEnd
          if offset.toNat + 10 > len.toNat then pure r
          else
            Probe.word offset.toNat >>= fun rtype =>
              Probe.dword (offset.toNat + 4) >>= fun rttl =>
                Probe.word (offset.toNat + 8) >>= fun rdlen =>
                  let offset := offset + 10
                  let r := if rttl < r.ttl then { r with ttl := rttl } else r
                  dnsAddress rtype rdlen offset r >>= fun r =>
                    dnsAnswers len k (offset + rdlen) r
    else pure r

/-- The end of `upf_parse_dns_response`; `none` is `-1`. -/
def dnsReport (r : DnsResult) : Option DnsResult :=
  if r.detected then some (if r.ttl = 0xFFFFFFFF then { r with ttl := 300 } else r) else none

/-- `upf_parse_dns_response`.  The outer `none` is for a name that is not yet written. -/
def parseDnsResponse (len : UInt16) (fuel : Nat) : Probe (Option (Option DnsResult)) :=
  if len < 12 then pure (some none)
  else
    Probe.word 2 >>= fun flags =>
      if flags &&& 0x8000 = 0 then pure (some none)
      else
        Probe.word 4 >>= fun qdcount => Probe.word 6 >>= fun ancount =>
          if ancount = 0 then pure (some none)
          else
            extractDnsName len fuel 12 [] 0 >>= fun domain =>
              domain.elim (pure none) fun domain =>
                dnsQuestions len qdcount.toNat 12 >>= fun offset =>
                  offset.elim (pure (some none)) fun offset =>
                    dnsAnswers len ancount.toNat offset ⟨domain, [], [], 0xFFFFFFFF⟩ >>= fun r =>
                      pure (some (dnsReport r))

/-! ## Reads and writes -/

section Bounds

variable {mem : Memory} {len : UInt16}

theorem skipDnsName_within (k : Nat) (offset : UInt16) :
    Probe.Within mem len.toNat (skipDnsName len k offset) := by
  induction k generalizing offset with
  | zero => exact within_pure _
  | succ k ih =>
    rw [skipDnsName]
    split
    · grind [within_bind, within_byte, lt_iff_toNat_lt, within_pure]
    · exact within_pure _

theorem copyLabel_within (k i : Nat) (buf : List UInt8) :
    Probe.Within mem len.toNat (copyLabel len k i buf) := by
  induction k generalizing i buf with
  | zero => exact within_pure _
  | succ k ih =>
    grind [copyLabel, within_bind, within_byte, within_pure]

variable (mem len) in
/-- The inner loop keeps to the buffer, and it writes something where it can. -/
theorem copyLabel_length (k i : Nat) (buf : List UInt8) (hbuf : buf.length < upfDpiMaxDomainLen) :
    let l := (copyLabel len k i buf).value mem
    buf.length ≤ l.length ∧ l.length < upfDpiMaxDomainLen ∧
      (0 < k → i < len.toNat → buf.length < upfDpiMaxDomainLen - 1 → buf.length < l.length) := by
  induction k generalizing i buf with
  | zero => exact ⟨Nat.le_refl _, hbuf, fun h => absurd h (Nat.lt_irrefl 0)⟩
  | succ k ih =>
    rw [copyLabel]
    split
    · rw [value_bind, value_byte]
      have hlen : (buf ++ [toLower (mem i)]).length = buf.length + 1 := length_append
      grind
    · simp_all

theorem extractDnsName_within (fuel : Nat) (cur : UInt16) (buf : List UInt8) (jumps : Nat) :
    Probe.Within mem len.toNat (extractDnsName len fuel cur buf jumps) := by
  induction fuel generalizing cur buf jumps with
  | zero => exact within_pure _
  | succ fuel ih =>
    rw [extractDnsName]
    split
    · rename_i h
      rw [within_bind]
      refine ⟨within_byte.mpr (lt_iff_toNat_lt.mp h.1), ?_⟩
      grind [within_pure, within_bind, within_byte, copyLabel_within]
    · exact within_pure _

variable {fuel : Nat} {cur : UInt16} {jumps : Nat} {offset : UInt16}

/-- The name and the zero behind it fit in the buffer. -/
theorem extractDnsName_length {buf l : List UInt8} (hbuf : buf.length < upfDpiMaxDomainLen)
    (hv : (extractDnsName len fuel cur buf jumps).value mem = some l) :
    l.length < upfDpiMaxDomainLen := by
  induction fuel generalizing cur buf jumps with
  | zero => cases hv
  | succ fuel ih =>
    rw [extractDnsName] at hv
    split at hv
    · rw [value_bind, value_byte] at hv
      split at hv
      · cases hv
        exact hbuf
      · split at hv
        · split at hv
          · cases hv
            exact hbuf
          · split at hv
            · cases hv
              exact hbuf
            · exact ih hbuf hv
        · rw [value_bind] at hv
          refine ih (copyLabel_length mem len _ _ _ ?_).2.1 hv
          split
          · rw [length_append]
            grind
          · exact hbuf
    · cases hv
      exact hbuf

/-- What a label is copied behind. -/
theorem length_withDot (buf : List UInt8) :
    (if buf.length > 0 then buf ++ [46] else buf).length =
      if buf.length > 0 then buf.length + 1 else 0 := by
  split
  · exact length_append
  · omega

/-- The name is written after at most ten pointers and 255 bytes.  A label makes the name longer,
except a first one that is cut at the end of the packet; behind it the cursor is elsewhere. -/
theorem extractDnsName_ends {buf : List UInt8} (hjumps : jumps ≤ 10)
    (hbuf : buf.length < upfDpiMaxDomainLen) (hfuel : 2 * (255 - buf.length + (10 - jumps)) +
      (if cur.toNat + 1 = len.toNat then 1 else 0) < fuel) :
    ∃ l, (extractDnsName len fuel cur buf jumps).value mem = some l := by
  induction fuel generalizing cur buf jumps with
  | zero => exact absurd hfuel (Nat.not_lt_zero _)
  | succ fuel ih =>
    rw [extractDnsName]
    split
    · rename_i h
      have hcur : cur.toNat < len.toNat := lt_iff_toNat_lt.mp h.1
      rw [value_bind, value_byte]
      split
      · exact ⟨buf, rfl⟩
      · rename_i hzero
        split
        · split
          · exact ⟨buf, rfl⟩
          · rw [value_bind]
            split
            · exact ⟨buf, rfl⟩
            · refine ih (by omega) hbuf ?_
              split <;> split at hfuel <;> omega
        · rw [value_bind]
          have hdot := length_withDot buf
          have hlabel : 0 < (mem cur.toNat).toNat :=
            Nat.pos_of_ne_zero fun h0 => hzero (UInt8.toNat_inj.mp h0)
          have hlt := (mem cur.toNat).toNat_lt
          have hlen := len.toNat_lt
          have h1 : (1 : UInt16).toNat = 1 := rfl
          have hnext : (cur + 1).toNat = cur.toNat + 1 := by
            rw [UInt16.toNat_add, h1]
            omega
          have hfits : (if buf.length > 0 then buf ++ [46] else buf).length <
              upfDpiMaxDomainLen := by
            rw [hdot]
            have := h.2
            split <;> omega
          obtain ⟨hge, hmax, hmore⟩ := copyLabel_length mem len
            (mem cur.toNat).toNat (cur + 1).toNat _ hfits
          generalize (copyLabel len (mem cur.toNat).toNat (cur + 1).toNat
            (if buf.length > 0 then buf ++ [46] else buf)).value mem = l at hge hmax hmore
          have hjump : (cur + 1 + (mem cur.toNat).toUInt16).toNat =
              (cur.toNat + 1 + (mem cur.toNat).toNat) % 2 ^ 16 := by
            rw [UInt16.toNat_add, hnext, UInt8.toNat_toUInt16]
          have hmax' : l.length < 256 := hmax
          refine ih hjumps hmax ?_
          rw [hdot] at hge
          rw [hjump]
          by_cases hb : buf.length > 0
          · rw [if_pos hb] at hge
            split <;> split at hfuel <;> omega
          · by_cases hend : cur.toNat + 1 = len.toNat
            · rw [if_pos hend] at hfuel
              rw [if_neg (by omega)]
              omega
            · split <;> split at hfuel <;> omega
    · exact ⟨buf, rfl⟩

/-- The index is one of the bytes of an address whose record header, with its type and length, lies
in the packet. -/
def InAddress (mem : Memory) (len i : Nat) : Prop :=
  ∃ o, o + 10 ≤ len ∧
    (be16 (mem o) (mem (o + 1)) = 1 ∧ be16 (mem (o + 8)) (mem (o + 9)) = 4 ∧
        o + 10 ≤ i ∧ i < o + 14 ∨
      be16 (mem o) (mem (o + 1)) = 28 ∧ be16 (mem (o + 8)) (mem (o + 9)) = 16 ∧
        o + 10 ≤ i ∧ i < o + 26)

/-- The indices a response may be read at. -/
def Readable (mem : Memory) (len : UInt16) (i : Nat) : Prop :=
  i < len.toNat ∨ InAddress mem len.toNat i

theorem confined_of_within {α : Type} {p : Probe α} (h : Probe.Within mem len.toNat p) :
    Probe.Confined mem (Readable mem len) p :=
  h.confined fun _ hi => inl hi

theorem add_ten_toNat (h : offset.toNat + 10 ≤ len.toNat) :
    (offset + 10).toNat = offset.toNat + 10 := by
  have hlt := len.toNat_lt
  grind [UInt16.toNat_add]

theorem dnsAddress_confined (h : offset.toNat + 10 ≤ len.toNat) (r : DnsResult) :
    Probe.Confined mem (Readable mem len)
      (dnsAddress (be16 (mem offset.toNat) (mem (offset.toNat + 1)))
        (be16 (mem (offset.toNat + 8)) (mem (offset.toNat + 9))) (offset + 10) r) := by
  refine confined_ite (fun hc => ?_) fun _ => confined_ite (fun hc => ?_) fun _ =>
    confined_pure _
  · refine confined_bind (confined_bytes fun j h1 h2 => ?_) (confined_pure _)
    rw [add_ten_toNat h] at h1 h2
    exact inr ⟨offset.toNat, h, inl ⟨hc.1, hc.2.1, h1, h2⟩⟩
  · refine confined_bind (confined_bytes fun j h1 h2 => ?_) (confined_pure _)
    rw [add_ten_toNat h] at h1 h2
    exact inr ⟨offset.toNat, h, inr ⟨hc.1, hc.2.1, h1, h2⟩⟩

theorem dnsQuestions_within (k : Nat) (offset : UInt16) :
    Probe.Within mem len.toNat (dnsQuestions len k offset) := by
  induction k generalizing offset with
  | zero => exact within_pure _
  | succ k ih =>
    rw [dnsQuestions]
    split
    · rw [within_bind]
      refine ⟨skipDnsName_within _ _, ?_⟩
      cases (skipDnsName len 65 offset).value mem with
      | none => exact within_pure _
      | some e => exact ih _
    · exact within_pure _

theorem dnsAnswers_confined (k : Nat) (offset : UInt16) (r : DnsResult) :
    Probe.Confined mem (Readable mem len) (dnsAnswers len k offset r) := by
  induction k generalizing offset r with
  | zero => exact confined_pure _
  | succ k ih =>
    refine confined_ite (fun _ => ?_) fun _ => confined_pure _
    refine confined_bind (confined_of_within (skipDnsName_within _ _)) ?_
    cases (skipDnsName len 65 offset).value mem with
    | none => exact confined_pure _
    | some e =>
      refine confined_ite (fun _ => confined_pure _) fun hle => ?_
      have hin : (UInt16.ofNat e).toNat + 10 ≤ len.toNat := Nat.not_lt.mp hle
      refine confined_bind (confined_of_within (within_word.mpr (by omega))) ?_
      refine confined_bind (confined_of_within (within_dword.mpr (by omega))) ?_
      refine confined_bind (confined_of_within (within_word.mpr (by omega))) ?_
      exact confined_bind (dnsAddress_confined hin _) (ih _ _)

/-- The parser reads within the packet, but for the bytes of addresses. -/
theorem parseDnsResponse_confined (fuel : Nat) :
    Probe.Confined mem (Readable mem len) (parseDnsResponse len fuel) := by
  refine confined_ite (fun _ => confined_pure _) fun h12 => ?_
  have hlen : 12 ≤ len.toNat := Nat.not_lt.mp fun hlt => h12 (UInt16.lt_iff_toNat_lt.mpr hlt)
  refine confined_bind (confined_of_within (within_word.mpr (by omega))) ?_
  refine confined_ite (fun _ => confined_pure _) fun _ => ?_
  refine confined_bind (confined_of_within (within_word.mpr (by omega))) ?_
  refine confined_bind (confined_of_within (within_word.mpr (by omega))) ?_
  refine confined_ite (fun _ => confined_pure _) fun _ => ?_
  refine confined_bind (confined_of_within (extractDnsName_within _ _ _ _)) ?_
  cases (extractDnsName len fuel 12 [] 0).value mem with
  | none => exact confined_pure _
  | some domain =>
    refine confined_bind (confined_of_within (dnsQuestions_within _ _)) ?_
    cases (dnsQuestions len ((word 4).value mem).toNat 12).value mem with
    | none => exact confined_pure _
    | some offset => exact confined_bind (dnsAnswers_confined _ _ _) (confined_pure _)

variable (mem len) in
/-- The name that is written, for a number of rounds that is enough. -/
theorem exists_domain : ∃ l, (extractDnsName len 540 12 [] 0).value mem = some l :=
  extractDnsName_ends (by decide) (by decide) (by
    have h : (if (12 : UInt16).toNat + 1 = len.toNat then 1 else 0) ≤ 1 := by split <;> omega
    simp only [length_nil]
    omega)

/-- The parser ends on every packet. -/
theorem parseDnsResponse_ends : ∃ r, (parseDnsResponse len 540).value mem = some r := by
  obtain ⟨domain, hdomain⟩ := exists_domain mem len
  rw [parseDnsResponse]
  split
  · exact ⟨none, rfl⟩
  · rw [value_bind]
    split
    · exact ⟨none, rfl⟩
    · rw [value_bind, value_bind]
      split
      · exact ⟨none, rfl⟩
      · rw [value_bind, hdomain, Option.elim_some, value_bind]
        cases (dnsQuestions len ((word 4).value mem).toNat 12).value mem with
        | none => exact ⟨none, rfl⟩
        | some offset =>
          rw [Option.elim_some, value_bind]
          exact ⟨_, rfl⟩

end Bounds

end MmtCore.Upf
