import MmtCore.Upf.Dns

/-!
# What a DNS response reports

A response as it is written: a header, questions and answer records, whose names are labels that can
end with a pointer to an earlier place.  On such a packet `upf_parse_dns_response` reports the name
of the first question with the addresses of all answer records of the two address types, up to the
size of its arrays, whatever names these records have.
-/

namespace MmtCore.Upf

open MmtCore.Lib List Option UInt16 Probe Nat

/-! ## Responses -/

/-- The labels of a name that is written out, and the offset behind it. -/
inductive LabelsAt (mem : Memory) (len : Nat) : Nat → List (List UInt8) → Nat → Prop
  | root {off : Nat} (hoff : off < len) (hmem : mem off = 0) : LabelsAt mem len off [] (off + 1)
  | label {off n : Nat} {ls : List (List UInt8)} {e : Nat} (hmem : (mem off).toNat = n)
      (hpos : 0 < n) (hmax : n < 64) (hin : off + 1 + n ≤ len)
      (rest : LabelsAt mem len (off + 1 + n) ls e) :
      LabelsAt mem len off (Probe.slice mem (off + 1) n :: ls) e

/-- The labels of a name that may end with a pointer to an earlier place, and the offset behind
it. -/
inductive NameAt (mem : Memory) (len : Nat) : Nat → List (List UInt8) → Nat → Prop
  | root {off : Nat} (hoff : off < len) (hmem : mem off = 0) : NameAt mem len off [] (off + 1)
  | label {off n : Nat} {ls : List (List UInt8)} {e : Nat} (hmem : (mem off).toNat = n)
      (hpos : 0 < n) (hmax : n < 64) (hin : off + 1 + n ≤ len)
      (rest : NameAt mem len (off + 1 + n) ls e) :
      NameAt mem len off (Probe.slice mem (off + 1) n :: ls) e
  | pointer {off : Nat} {ls : List (List UInt8)} {e : Nat} (hin : off + 1 < len)
      (hmem : mem off &&& 0xC0 = 0xC0)
      (hback : (be16 (mem off &&& 0x3F) (mem (off + 1))).toNat < off)
      (rest : NameAt mem len (be16 (mem off &&& 0x3F) (mem (off + 1))).toNat ls e) :
      NameAt mem len off ls (off + 2)

/-- A name as text: its labels with dots between them. -/
def nameText : List (List UInt8) → List UInt8
  | [] => []
  | l :: ls => l ++ ls.flatMap (46 :: ·)

/-- A resource record, without its class. -/
structure DnsRecord where
  owner : List (List UInt8)
  rtype : UInt16
  ttl : UInt32
  rdata : List UInt8
deriving DecidableEq

/-- The names of the questions from an offset on, and the offset behind them. -/
inductive QuestionsAt (mem : Memory) (len : Nat) : Nat → List (List (List UInt8)) → Nat → Prop
  | nil (off : Nat) : QuestionsAt mem len off [] off
  | cons {off e e' : Nat} {q : List (List UInt8)} {qs : List (List (List UInt8))}
      (name : NameAt mem len off q e) (hin : e + 4 ≤ len)
      (rest : QuestionsAt mem len (e + 4) qs e') : QuestionsAt mem len off (q :: qs) e'

/-- The records from an offset on. -/
inductive RecordsAt (mem : Memory) (len : Nat) : Nat → List DnsRecord → Prop
  | nil (off : Nat) : RecordsAt mem len off []
  | cons {off e n : Nat} {owner : List (List UInt8)} {rs : List DnsRecord}
      (name : NameAt mem len off owner e)
      (hlen : (be16 (mem (e + 8)) (mem (e + 9))).toNat = n) (hin : e + 10 + n ≤ len)
      (rest : RecordsAt mem len (e + 10 + n) rs) :
      RecordsAt mem len off
        (⟨owner, be16 (mem e) (mem (e + 1)),
          be32 (mem (e + 4)) (mem (e + 5)) (mem (e + 6)) (mem (e + 7)),
          Probe.slice mem (e + 10) n⟩ :: rs)

/-- The packet is a response that asks for a name first. -/
structure DnsMessage (mem : Memory) (len : UInt16) (name : List (List UInt8))
    (qs : List (List (List UInt8))) (rs : List DnsRecord) : Prop where
  header : 12 ≤ len.toNat
  response : be16 (mem 2) (mem 3) &&& 0x8000 ≠ 0
  qdcount : (be16 (mem 4) (mem 5)).toNat = qs.length
  ancount : (be16 (mem 6) (mem 7)).toNat = rs.length
  first : ∃ e, LabelsAt mem len.toNat 12 name e
  first_text : (nameText name).length ≤ 255
  sections : ∃ off, QuestionsAt mem len.toNat 12 qs off ∧ RecordsAt mem len.toNat off rs

/-! ## Names that are passed and written -/

section Names

variable {mem : Memory} {len : UInt16}

theorem not_pointer_of_lt {u : UInt8} (h : u.toNat < 64) : u &&& 0xC0 ≠ 0xC0 := by
  intro heq
  have hle : (u &&& 0xC0).toNat ≤ u.toNat := by
    rw [UInt8.toNat_and]
    exact and_le_left
  have h192 : (0xC0 : UInt8).toNat = 192 := rfl
  rw [heq] at hle
  omega

/-- A label in its place. -/
theorem label_step {offset : UInt16} {n : Nat} (hmem : (mem offset.toNat).toNat = n) (hpos : 0 < n)
    (hmax : n < 64) (hin : offset.toNat + 1 + n ≤ len.toNat) :
    offset < len ∧ mem offset.toNat ≠ 0 ∧ mem offset.toNat &&& 0xC0 ≠ 0xC0 ∧
      (offset + 1).toNat = offset.toNat + 1 ∧
      (offset + (1 + (mem offset.toNat).toUInt16)).toNat = offset.toNat + 1 + n ∧
      (offset + 1 + (mem offset.toNat).toUInt16).toNat = offset.toNat + 1 + n := by
  have hlen := len.toNat_lt
  have h1 : (1 : UInt16).toNat = 1 := rfl
  have hnext : (offset + 1).toNat = offset.toNat + 1 := by
    rw [UInt16.toNat_add, h1]
    omega
  refine ⟨lt_iff_toNat_lt.mpr (by omega), fun h0 => ?_, not_pointer_of_lt (by omega), hnext,
    ?_, ?_⟩
  · simp_all
  · rw [UInt16.toNat_add, UInt16.toNat_add, UInt8.toNat_toUInt16, h1, hmem]
    omega
  · rw [UInt16.toNat_add, hnext, UInt8.toNat_toUInt16, hmem]
    omega

variable {ls : List (List UInt8)}

/-- A name with few enough labels is passed to its end. -/
theorem skipDnsName_eq {off e : Nat} (h : NameAt mem len.toNat off ls e) :
    ∀ (k : Nat) (offset : UInt16), ls.length < k → offset.toNat = off →
      (skipDnsName len k offset).value mem = some e := by
  induction h with
  | root hoff hmem =>
    rintro k offset hk rfl
    obtain ⟨k, rfl⟩ : ∃ k', k = k' + 1 := ⟨k - 1, by omega⟩
    rw [skipDnsName, if_pos (lt_iff_toNat_lt.mpr hoff), value_bind, value_byte,
      if_pos hmem, value_pure]
  | label hmem hpos hmax hin _ ih =>
    rintro k offset hk rfl
    obtain ⟨k, rfl⟩ : ∃ k', k = k' + 1 := ⟨k - 1, by omega⟩
    obtain ⟨hlt, hne, hptr, -, hnext, -⟩ := label_step hmem hpos hmax hin
    simp_all [skipDnsName]
  | pointer hin hmem _ _ _ =>
    rintro k offset hk rfl
    obtain ⟨k, rfl⟩ : ∃ k', k = k' + 1 := ⟨k - 1, by omega⟩
    have hne : mem offset.toNat ≠ 0 := by
      intro h0
      rw [h0] at hmem
      exact absurd hmem (by decide)
    rw [skipDnsName, if_pos (lt_iff_toNat_lt.mpr (by omega)), value_bind,
      value_byte, if_neg hne, if_pos hmem, value_pure]

theorem NameAt.le {off e n : Nat} (h : NameAt mem n off ls e) : off < e ∧ e ≤ n := by
  induction h with
  | root hoff _ | label _ _ _ _ _ ih | pointer hin _ _ _ _ => omega

/-- A label that fits in the packet and the buffer is copied whole. -/
theorem copyLabel_eq {k i : Nat} {buf : List UInt8} (hin : i + k ≤ len.toNat)
    (hbuf : buf.length + k ≤ 255) :
    (copyLabel len k i buf).value mem = buf ++ (Probe.slice mem i k).map toLower := by
  induction k generalizing i buf with
  | zero => simp [copyLabel, slice]
  | succ k ih =>
    grind [copyLabel, value_bind, value_byte, slice, range'_succ]

/-- What is written behind `buf` for the labels that follow. -/
def dotted (buf : List UInt8) (ls : List (List UInt8)) : List UInt8 :=
  if buf.length > 0 then ls.flatMap (46 :: ·) else nameText ls

/-- A name that is written out and fits is written to the buffer. -/
theorem extractDnsName_eq {off e : Nat} (h : LabelsAt mem len.toNat off ls e) :
    ∀ (fuel : Nat) (cur : UInt16) (buf l : List UInt8) (jumps : Nat), cur.toNat = off →
      buf.length + (dotted buf ls).length ≤ 255 →
      (extractDnsName len fuel cur buf jumps).value mem = some l →
      l = buf ++ (dotted buf ls).map toLower := by
  induction h with
  | root hoff hmem =>
    rintro fuel cur buf l jumps rfl _ hv
    have hnil : dotted buf [] = [] := by
      unfold dotted
      split <;> rfl
    rw [hnil, map_nil, append_nil]
    cases fuel with
    | zero => cases hv
    | succ fuel =>
      rw [extractDnsName] at hv
      split at hv
      · rw [value_bind, value_byte, if_pos hmem] at hv
        exact (some.inj hv).symm
      · exact (some.inj hv).symm
  | @label off n ls e hmem hpos hmax hin _ ih =>
    rintro fuel cur buf l jumps rfl hfits hv
    cases fuel with
    | zero => cases hv
    | succ fuel =>
      obtain ⟨hlt, hne, hptr, hone, -, hnext⟩ := label_step hmem hpos hmax hin
      have hslice : (slice mem (cur.toNat + 1) n).length = n := length_slice _ _ _
      have hdot := length_withDot buf
      have hdots : dotted buf (slice mem (cur.toNat + 1) n :: ls) =
          (if buf.length > 0 then [46] else []) ++
            (slice mem (cur.toNat + 1) n ++ ls.flatMap (46 :: ·)) := by
        unfold dotted
        split
        · simp
        · rfl
      rw [hdots] at hfits ⊢
      simp only [length_append, hslice] at hfits
      have hdotLen : (if buf.length > 0 then [46] else ([] : List UInt8)).length =
          if buf.length > 0 then 1 else 0 := by split <;> rfl
      rw [hdotLen] at hfits
      have hcond : cur < len ∧ buf.length < upfDpiMaxDomainLen - 1 :=
        ⟨hlt, Nat.lt_of_lt_of_le (Nat.lt_add_of_pos_right (by omega)) hfits⟩
      have hroom : (if buf.length > 0 then buf ++ [46] else buf).length + n ≤ 255 := by
        rw [hdot]
        split <;> split at hfits <;> omega
      rw [extractDnsName, if_pos hcond, value_bind, value_byte, if_neg hne,
        if_neg hptr, value_bind, hmem, hone, copyLabel_eq (by omega) hroom] at hv
      generalize hwritten : (if buf.length > 0 then buf ++ [46] else buf) ++
        (slice mem (cur.toNat + 1) n).map toLower = buf' at hv
      have hlen' : buf'.length = (if buf.length > 0 then buf.length + 1 else 0) + n := by
        rw [← hwritten, length_append, hdot, length_map, hslice]
      have hdotted' : dotted buf' ls = ls.flatMap (46 :: ·) := by
        unfold dotted
        rw [if_pos]
        omega
      have hl := ih fuel _ buf' l jumps hnext (by
        rw [hdotted', hlen']
        split <;> split at hfits <;> omega) hv
      rw [hl, hdotted', ← hwritten]
      have hlow : toLower 46 = 46 := by decide
      split
      · simp only [map_append, map_cons, hlow, append_assoc,
          cons_append, nil_append]
      · simp only [map_append, append_assoc, nil_append]

end Names

/-! ## Sections -/

section Sections

variable {mem : Memory} {len : UInt16}

theorem toNat_ofNat_le {k : Nat} (h : k ≤ len.toNat) : (UInt16.ofNat k).toNat = k := by
  have hlt := len.toNat_lt
  rw [UInt16.toNat_ofNat']
  omega

variable {qs : List (List (List UInt8))} {rs : List DnsRecord}

/-- The questions are passed. -/
theorem dnsQuestions_eq {off e : Nat} (h : QuestionsAt mem len.toNat off qs e)
    (hfew : ∀ q ∈ qs, q.length ≤ 64) :
    ∀ offset : UInt16, offset.toNat = off →
      ∃ o, (dnsQuestions len qs.length offset).value mem = some o ∧ o.toNat = e := by
  induction h with
  | nil =>
    intro offset hoff
    exact ⟨offset, rfl, hoff⟩
  | @cons off e e' q qs name hin _ ih =>
    rintro offset rfl
    have hle := name.le
    have hq : q.length < 65 := lt_succ_of_le (hfew q mem_cons_self)
    rw [List.length_cons, dnsQuestions, if_pos (UInt16.lt_iff_toNat_lt.mpr (by omega)),
      value_bind, skipDnsName_eq name 65 offset hq rfl, elim_some]
    exact ih (fun p hp => hfew p (mem_cons_of_mem _ hp)) _ (toNat_ofNat_le hin)

/-- The result with the data of a record, if it is an address there is room for. -/
def addAddress (r : DnsResult) (rtype : UInt16) (rdata : List UInt8) : DnsResult :=
  if rtype = 1 ∧ rdata.length = 4 ∧ r.resolvedIpv4.length < upfDpiMaxDnsIps then
    { r with resolvedIpv4 := r.resolvedIpv4 ++ [rdata] }
  else if rtype = 28 ∧ rdata.length = 16 ∧ r.resolvedIpv6.length < upfDpiMaxDnsIps then
    { r with resolvedIpv6 := r.resolvedIpv6 ++ [rdata] }
  else r

/-- What a record adds to the result. -/
def addRecord (r : DnsResult) (x : DnsRecord) : DnsResult :=
  addAddress (if x.ttl < r.ttl then { r with ttl := x.ttl } else r) x.rtype x.rdata

/-- The address of a record is stored as the record has it. -/
theorem dnsAddress_eq (rtype rdlen offset : UInt16) (r : DnsResult) :
    (dnsAddress rtype rdlen offset r).value mem =
      addAddress r rtype (Probe.slice mem offset.toNat rdlen.toNat) := by
  have h4 : rdlen = 4 ↔ rdlen.toNat = 4 := ⟨fun h => h ▸ rfl, fun h => UInt16.toNat_inj.mp h⟩
  have h16 : rdlen = 16 ↔ rdlen.toNat = 16 := ⟨fun h => h ▸ rfl, fun h => UInt16.toNat_inj.mp h⟩
  unfold dnsAddress addAddress
  rw [length_slice]
  simp_all

/-- The answers are added one after the other. -/
theorem dnsAnswers_eq {off : Nat} (h : RecordsAt mem len.toNat off rs)
    (hfew : ∀ x ∈ rs, x.owner.length ≤ 64) :
    ∀ (offset : UInt16) (r : DnsResult), offset.toNat = off →
      (dnsAnswers len rs.length offset r).value mem = rs.foldl addRecord r := by
  induction h with
  | nil => exact fun _ _ _ => rfl
  | @cons off e n owner rs name hlen hin _ ih =>
    rintro offset r rfl
    have hle := name.le
    have howner : owner.length < 65 := lt_succ_of_le (hfew _ mem_cons_self)
    have he : (UInt16.ofNat e).toNat = e := toNat_ofNat_le (show e ≤ len.toNat by omega)
    have hten : (UInt16.ofNat e + 10).toNat = e + 10 := by
      rw [add_ten_toNat (show (UInt16.ofNat e).toNat + 10 ≤ len.toNat by omega), he]
    rw [length_cons, dnsAnswers, if_pos (by omega), value_bind,
      skipDnsName_eq name 65 offset howner rfl, elim_some]
    dsimp only
    rw [he, if_neg (by omega)]
    simp only [value_bind, value_word, value_dword]
    have hnext : (ofNat e + 10 + be16 (mem (e + 8)) (mem (e + 9))).toNat = e + 10 + n := by
      have hlt := len.toNat_lt
      rw [UInt16.toNat_add, hten, hlen]
      omega
    rw [dnsAddress_eq, hten]
    rw [ih (fun x hx => hfew x (mem_cons_of_mem _ hx)) _ _ hnext, foldl_cons, ← hlen]
    rfl

/-- The data of the records of a type and a length. -/
def addresses (rtype : UInt16) (size : Nat) (rs : List DnsRecord) : List (List UInt8) :=
  (rs.filter fun x => x.rtype = rtype ∧ x.rdata.length = size).map (·.rdata)

/-- The smallest time to live. -/
def minTtl (rs : List DnsRecord) : UInt32 :=
  rs.foldl (fun t x => if x.ttl < t then x.ttl else t) 0xFFFFFFFF

theorem addresses_cons (rtype : UInt16) (size : Nat) (x : DnsRecord) (rs : List DnsRecord) :
    addresses rtype size (x :: rs) =
      (if x.rtype = rtype ∧ x.rdata.length = size then [x.rdata] else []) ++
        addresses rtype size rs := by
  grind [addresses]

/-- Adding to a list as long as there is room takes the first ones. -/
theorem take_push {α : Type} {n : Nat} {l : List α} (h : l.length ≤ n) (x : α) (m : List α) :
    ((if l.length < n then l ++ [x] else l) ++ m).take n = (l ++ ([x] ++ m)).take n := by
  grind

/-- What a record changes. -/
theorem addRecord_fields (r : DnsResult) (x : DnsRecord) :
    (addRecord r x).domain = r.domain ∧
      (addRecord r x).ttl = (if x.ttl < r.ttl then x.ttl else r.ttl) ∧
      (addRecord r x).resolvedIpv4 =
        (if x.rtype = 1 ∧ x.rdata.length = 4 then
          (if r.resolvedIpv4.length < upfDpiMaxDnsIps then r.resolvedIpv4 ++ [x.rdata]
            else r.resolvedIpv4)
          else r.resolvedIpv4) ∧
      (addRecord r x).resolvedIpv6 =
        (if x.rtype = 28 ∧ x.rdata.length = 16 then
          (if r.resolvedIpv6.length < upfDpiMaxDnsIps then r.resolvedIpv6 ++ [x.rdata]
            else r.resolvedIpv6)
          else r.resolvedIpv6) := by
  grind [addRecord, addAddress]

/-- What all records change. -/
theorem foldl_addRecord (rs : List DnsRecord) {r : DnsResult}
    (h4 : r.resolvedIpv4.length ≤ upfDpiMaxDnsIps) (h6 : r.resolvedIpv6.length ≤ upfDpiMaxDnsIps) :
    rs.foldl addRecord r =
      ⟨r.domain, (r.resolvedIpv4 ++ addresses 1 4 rs).take upfDpiMaxDnsIps,
        (r.resolvedIpv6 ++ addresses 28 16 rs).take upfDpiMaxDnsIps,
        rs.foldl (fun t x => if x.ttl < t then x.ttl else t) r.ttl⟩ := by
  induction rs generalizing r with
  | nil =>
    have hnil : ∀ rtype size, addresses rtype size [] = [] := fun _ _ => rfl
    simp_all [take_of_length_le]
  | cons x rs ih =>
    obtain ⟨hdomain, httl, hv4, hv6⟩ := addRecord_fields r x
    have hpush : ∀ l : List (List UInt8), l.length ≤ upfDpiMaxDnsIps →
        (if l.length < upfDpiMaxDnsIps then l ++ [x.rdata] else l).length ≤ upfDpiMaxDnsIps := by
      intro l hl
      split
      · rename_i hlt
        rw [length_append]
        exact hlt
      · exact hl
    have h4' : (addRecord r x).resolvedIpv4.length ≤ upfDpiMaxDnsIps := by
      rw [hv4]
      split
      · exact hpush _ h4
      · exact h4
    have h6' : (addRecord r x).resolvedIpv6.length ≤ upfDpiMaxDnsIps := by
      rw [hv6]
      split
      · exact hpush _ h6
      · exact h6
    rw [foldl_cons, ih h4' h6', hdomain, httl, hv4, hv6, addresses_cons, addresses_cons,
      foldl_cons]
    congr 1
    · split
      · exact take_push h4 _ _
      · rfl
    · split
      · exact take_push h6 _ _
      · rfl

/-- What is reported of a response: the name it asks for with the first addresses of each type. -/
def reportOf (name : List (List UInt8)) (rs : List DnsRecord) : Option DnsResult :=
  dnsReport ⟨(nameText name).map toLower, (addresses 1 4 rs).take upfDpiMaxDnsIps,
    (addresses 28 16 rs).take upfDpiMaxDnsIps, minTtl rs⟩

/-- A response whose names have few enough labels is reported so. -/
theorem parseDnsResponse_eq {name : List (List UInt8)} (h : DnsMessage mem len name qs rs)
    (hqs : ∀ q ∈ qs, q.length ≤ 64) (hrs : ∀ x ∈ rs, x.owner.length ≤ 64) {fuel : Nat}
    {r : Option DnsResult} (hv : (parseDnsResponse len fuel).value mem = some r) :
    r = reportOf name rs := by
  have h12 : ¬len < 12 := fun hlt =>
    absurd (UInt16.lt_iff_toNat_lt.mp hlt) (Nat.not_lt.mpr h.header)
  obtain ⟨e, hlabels⟩ := h.first
  obtain ⟨off, hquestions, hrecords⟩ := h.sections
  obtain ⟨o, ho, hooff⟩ := dnsQuestions_eq hquestions hqs 12 rfl
  have hflags : (word 2).value mem = be16 (mem 2) (mem 3) := rfl
  have hqd : (word 4).value mem = be16 (mem 4) (mem 5) := rfl
  have han : (word 6).value mem = be16 (mem 6) (mem 7) := rfl
  rw [parseDnsResponse, if_neg h12, value_bind, hflags, if_neg h.response, value_bind,
    value_bind, hqd, han] at hv
  by_cases hcount : be16 (mem 6) (mem 7) = 0
  · have hzero : rs.length = 0 := h.ancount.symm.trans (congrArg UInt16.toNat hcount)
    rw [length_eq_zero_iff.mp hzero]
    rw [if_pos hcount] at hv
    exact (some.inj hv).symm
  rw [if_neg hcount, value_bind] at hv
  cases hd : (extractDnsName len fuel 12 [] 0).value mem with
  | none =>
    rw [hd] at hv
    cases hv
  | some domain =>
    have hdomain : domain = [] ++ (dotted [] name).map toLower :=
      extractDnsName_eq hlabels fuel 12 [] domain 0 rfl (by simpa [dotted] using h.first_text) hd
    have hdotted : dotted [] name = nameText name := rfl
    rw [hd, elim_some, value_bind, h.qdcount, ho, elim_some, value_bind,
      h.ancount, dnsAnswers_eq hrecords hrs o _ hooff, value_pure,
      foldl_addRecord rs (zero_le _) (zero_le _), hdomain, hdotted] at hv
    exact (some.inj hv).symm

end Sections

/-! ## What the parser promises -/

/-- The pairs of a result. -/
def reportedPairs (r : DnsResult) : List (List UInt8 × List UInt8) :=
  (r.resolvedIpv4 ++ r.resolvedIpv6).map fun a => (r.domain, a)

/-- The pairs of the answer records. -/
def recordPairs (rs : List DnsRecord) : List (List UInt8 × List UInt8) :=
  (rs.filter fun x => x.rtype = 1 ∧ x.rdata.length = 4 ∨ x.rtype = 28 ∧ x.rdata.length = 16).map
    fun x => ((nameText x.owner).map toLower, x.rdata)

/-- All that is asked of the parser: it ends, reads within the packet and writes within its buffer,
and it reports the names and addresses of the answer records. -/
def DnsSafe (mem : Memory) (len : UInt16) : Prop :=
  (∃ fuel r, (parseDnsResponse len fuel).value mem = some r) ∧
    (∀ fuel, Probe.Within mem len.toNat (parseDnsResponse len fuel)) ∧
    (∀ fuel l, (extractDnsName len fuel 12 [] 0).value mem = some l →
      l.length < upfDpiMaxDomainLen) ∧
    ∀ name qs rs, DnsMessage mem len name qs rs →
      ∀ fuel r, (parseDnsResponse len fuel).value mem = some (some r) →
        ∀ p, p ∈ reportedPairs r ↔ p ∈ recordPairs rs

/-- A response that asks for `a`, says that `a` is another name of `b`, and gives the address of
`b`. -/
def aliasResponse : Memory := fun i =>
  [0, 1, 0x80, 0, 0, 1, 0, 2, 0, 0, 0, 0,
    1, 0x61, 0, 0, 1, 0, 1,
    0xC0, 12, 0, 5, 0, 1, 0, 0, 0, 60, 0, 3, 1, 0x62, 0,
    0xC0, 31, 0, 1, 0, 1, 0, 0, 0, 60, 0, 4, 10, 0, 0, 1].getD i 0

theorem aliasResponse_message :
    DnsMessage aliasResponse 50 [[0x61]] [[[0x61]]]
      [⟨[[0x61]], 5, 60, [1, 0x62, 0]⟩, ⟨[[0x62]], 1, 60, [10, 0, 0, 1]⟩] := by
  have hroot : ∀ off < 50, aliasResponse off = 0 → NameAt aliasResponse 50 off [] (off + 1) :=
    fun off h h0 => NameAt.root h h0
  have ha : NameAt aliasResponse 50 12 [[0x61]] 15 :=
    NameAt.label (n := 1) rfl (by decide) (by decide) (by decide) (hroot 14 (by decide) rfl)
  have hb : NameAt aliasResponse 50 31 [[0x62]] 34 :=
    NameAt.label (n := 1) rfl (by decide) (by decide) (by decide) (hroot 33 (by decide) rfl)
  have hb' : NameAt aliasResponse 50 34 [[0x62]] 36 :=
    NameAt.pointer (by decide) rfl (by decide) hb
  have ha' : NameAt aliasResponse 50 19 [[0x61]] 21 :=
    NameAt.pointer (by decide) rfl (by decide) ha
  exact
    { header := by decide
      response := by decide
      qdcount := rfl
      ancount := rfl
      first := ⟨15, LabelsAt.label (n := 1) rfl (by decide) (by decide) (by decide)
        (LabelsAt.root (by decide) rfl)⟩
      first_text := by decide
      sections := ⟨19, QuestionsAt.cons ha (by decide) (QuestionsAt.nil 19),
        RecordsAt.cons (n := 3) ha' rfl (by decide)
          (RecordsAt.cons (n := 4) hb' rfl (by decide) (RecordsAt.nil 50))⟩ }

theorem dns_not_safe : ¬∀ (mem : Memory) (len : UInt16), DnsSafe mem len := by
  intro h
  have hvalue : (parseDnsResponse 50 3).value aliasResponse =
      some (some ⟨[0x61], [[10, 0, 0, 1]], [], 60⟩) := by decide
  have hpair := (h aliasResponse 50).2.2.2 _ _ _ aliasResponse_message 3 _ hvalue
    ([0x61], [10, 0, 0, 1])
  exact absurd (hpair.mp (by decide)) (by decide)

/-- The parser ends on every packet; it reads within the packet, but for the data of A and AAAA
records whose headers lie in it; it writes no more than fits in its buffer.  Of a response it
reports the name of the first question, in lower case, with the first addresses of the answer
records of each type, in their order, if no name has more than 64 labels. -/
theorem parseDnsResponse_spec (mem : Memory) (len : UInt16) :
    (∃ fuel r, (parseDnsResponse len fuel).value mem = some r) ∧
      (∀ fuel, Probe.Confined mem (Readable mem len) (parseDnsResponse len fuel)) ∧
      (∀ fuel l, (extractDnsName len fuel 12 [] 0).value mem = some l →
        l.length < upfDpiMaxDomainLen) ∧
      ∀ name qs rs, DnsMessage mem len name qs rs → (∀ q ∈ qs, q.length ≤ 64) →
        (∀ x ∈ rs, x.owner.length ≤ 64) →
        ∀ fuel r, (parseDnsResponse len fuel).value mem = some r → r = reportOf name rs :=
  ⟨⟨540, parseDnsResponse_ends⟩, parseDnsResponse_confined,
    fun _ _ hv => extractDnsName_length (by decide) hv,
    fun _ _ _ h hqs hrs _ _ hv => parseDnsResponse_eq h hqs hrs hv⟩

end MmtCore.Upf
