import FaultLane.PublicAddresses

set_option autoImplicit false

/-!
# What public destinations keep out

The blocks that the checks list, against the reserved ones. Addresses of the forms that the
checks do not read, and of the blocks that they do not list, pass.
-/
namespace FaultLane.PublicAddresses
open SortDedup AddressPrefix

/-! ## IPv4 -/

section ipv4
variable {a : Ipv4Addr} {p : AddressPrefix 32}

theorem toNat_octet (a : Ipv4Addr) : (a.octet 0).toNat = a.toNat / 2 ^ 24 ∧
    (a.octet 1).toNat = a.toNat / 2 ^ 16 % 2 ^ 8 ∧ (a.octet 2).toNat = a.toNat / 2 ^ 8 % 2 ^ 8 := by
  have hv : a.toNat < 2 ^ 32 := a.isLt
  unfold Ipv4Addr.octet
  simp only [BitVec.extractLsb'_toNat, Nat.shiftRight_eq_div_pow, Nat.mul_zero, Nat.sub_zero]
  refine ⟨?_, trivial, trivial⟩
  omega

theorem contains_octet (hlength : p.length = 8) :
    p.Contains a ↔ a.octet 0 = Ipv4Addr.octet p.bits 0 := by
  rw [contains_iff_toNat, hlength, ← BitVec.toNat_inj, (toNat_octet a).1, (toNat_octet p.bits).1]

theorem contains_two_octets (hlength : p.length = 16) :
    p.Contains a ↔
      a.octet 0 = Ipv4Addr.octet p.bits 0 ∧ a.octet 1 = Ipv4Addr.octet p.bits 1 := by
  obtain ⟨h0, h1, -⟩ := toNat_octet a
  obtain ⟨hp0, hp1, -⟩ := toNat_octet p.bits
  rw [contains_iff_toNat, hlength, ← BitVec.toNat_inj, ← BitVec.toNat_inj, h0, h1, hp0, hp1]
  omega

theorem contains_three_octets (hlength : p.length = 24) :
    p.Contains a ↔ a.octet 0 = Ipv4Addr.octet p.bits 0 ∧
      a.octet 1 = Ipv4Addr.octet p.bits 1 ∧ a.octet 2 = Ipv4Addr.octet p.bits 2 := by
  obtain ⟨h0, h1, h2⟩ := toNat_octet a
  obtain ⟨hp0, hp1, hp2⟩ := toNat_octet p.bits
  rw [contains_iff_toNat, hlength, ← BitVec.toNat_inj, ← BitVec.toNat_inj, ← BitVec.toNat_inj,
    h0, h1, h2, hp0, hp1, hp2]
  omega

/-- The blocks that end inside an octet are ranges of it. -/
theorem contains_ranges (a : Ipv4Addr) :
    (AddressPrefix.Contains (.v4 [100, 64] 10) a ↔
      a.octet 0 = 100 ∧ (64 ≤ a.octet 1 ∧ a.octet 1 ≤ 127)) ∧
    (AddressPrefix.Contains (.v4 [172, 16] 12) a ↔
      a.octet 0 = 172 ∧ (16 ≤ a.octet 1 ∧ a.octet 1 ≤ 31)) ∧
    (AddressPrefix.Contains (.v4 [198, 18] 15) a ↔
      a.octet 0 = 198 ∧ (a.octet 1 = 18 ∨ a.octet 1 = 19)) ∧
    (AddressPrefix.Contains (.v4 [224] 4) a ∨ AddressPrefix.Contains (.v4 [240] 4) a ↔
      224 ≤ a.octet 0) := by
  obtain ⟨h0, h1, -⟩ := toNat_octet a
  have hv : a.toNat < 2 ^ 32 := a.isLt
  simp only [contains_iff_toNat, ← BitVec.toNat_inj, BitVec.le_def, h0, h1]
  refine ⟨?_, ?_, ?_, ?_⟩
  · change a.toNat / 2 ^ 22 = 401 ↔
      a.toNat / 2 ^ 24 = 100 ∧ 64 ≤ a.toNat / 2 ^ 16 % 2 ^ 8 ∧ a.toNat / 2 ^ 16 % 2 ^ 8 ≤ 127
    omega
  · change a.toNat / 2 ^ 20 = 2753 ↔
      a.toNat / 2 ^ 24 = 172 ∧ 16 ≤ a.toNat / 2 ^ 16 % 2 ^ 8 ∧ a.toNat / 2 ^ 16 % 2 ^ 8 ≤ 31
    omega
  · change a.toNat / 2 ^ 17 = 25353 ↔
      a.toNat / 2 ^ 24 = 198 ∧ (a.toNat / 2 ^ 16 % 2 ^ 8 = 18 ∨ a.toNat / 2 ^ 16 % 2 ^ 8 = 19)
    omega
  · change a.toNat / 2 ^ 28 = 14 ∨ a.toNat / 2 ^ 28 = 15 ↔ 224 ≤ a.toNat / 2 ^ 24
    omega

theorem publicIpv4_iff : publicIpv4 a = true ↔ ∀ b ∈ reservedIpv4, ¬ b.Contains a := by
  obtain ⟨h100, h172, h198, h224⟩ := contains_ranges a
  have h0 : AddressPrefix.Contains (.v4 [0] 8) a ↔ a.octet 0 = 0 := contains_octet rfl
  have h10 : AddressPrefix.Contains (.v4 [10] 8) a ↔ a.octet 0 = 10 := contains_octet rfl
  have h127 : AddressPrefix.Contains (.v4 [127] 8) a ↔ a.octet 0 = 127 := contains_octet rfl
  have h169 : AddressPrefix.Contains (.v4 [169, 254] 16) a ↔
      a.octet 0 = 169 ∧ a.octet 1 = 254 := contains_two_octets rfl
  have h192 : AddressPrefix.Contains (.v4 [192, 168] 16) a ↔
      a.octet 0 = 192 ∧ a.octet 1 = 168 := contains_two_octets rfl
  have h00 : AddressPrefix.Contains (.v4 [192, 0, 0] 24) a ↔
      a.octet 0 = 192 ∧ a.octet 1 = 0 ∧ a.octet 2 = 0 := contains_three_octets rfl
  have h02 : AddressPrefix.Contains (.v4 [192, 0, 2] 24) a ↔
      a.octet 0 = 192 ∧ a.octet 1 = 0 ∧ a.octet 2 = 2 := contains_three_octets rfl
  have h88 : AddressPrefix.Contains (.v4 [192, 88, 99] 24) a ↔
      a.octet 0 = 192 ∧ a.octet 1 = 88 ∧ a.octet 2 = 99 := contains_three_octets rfl
  have h51 : AddressPrefix.Contains (.v4 [198, 51, 100] 24) a ↔
      a.octet 0 = 198 ∧ a.octet 1 = 51 ∧ a.octet 2 = 100 := contains_three_octets rfl
  have h203 : AddressPrefix.Contains (.v4 [203, 0, 113] 24) a ↔
      a.octet 0 = 203 ∧ a.octet 1 = 0 ∧ a.octet 2 = 113 := contains_three_octets rfl
  unfold publicIpv4 reservedIpv4
  simp only [List.forall_mem_cons, decide_eq_true_eq, h0, h10, h127, h100, h169, h172, h00, h02,
    h88, h192, h198, h51, h203, ← h224, not_or]
  simp

end ipv4

/-! ## IPv6 -/

section ipv6
variable {a : Ipv6Addr}

/-- The blocks of the checks on an address that is not mapped. -/
def listedIpv6 : List (AddressPrefix 128) :=
  [.v6 [0, 0, 0, 0, 0, 0, 0, 0] 128, .v6 [0, 0, 0, 0, 0, 0, 0, 1] 128, .v6 [0xff00] 8,
    .v6 [0xfc00] 7, .v6 [0xfe80] 10, .v6 [0x2001, 0xdb8] 32, .v6 [0x2001, 2] 32,
    .v6 [0x64, 0xff9b] 32, .v6 [0xfec0] 10]

theorem segment_zero : a.segment 0 = first 16 a := rfl

theorem contains_iff_segments {p : AddressPrefix 128} (hlength : p.length = 32) :
    p.Contains a ↔
      a.segment 0 = Ipv6Addr.segment p.bits 0 ∧ a.segment 1 = Ipv6Addr.segment p.bits 1 := by
  have hv : a.toNat < 2 ^ 128 := a.isLt
  have hbits : p.bits.toNat < 2 ^ 128 := p.bits.isLt
  rw [contains_iff_toNat, hlength]
  unfold Ipv6Addr.segment
  rw [← BitVec.toNat_inj, ← BitVec.toNat_inj]
  simp only [BitVec.extractLsb'_toNat, Nat.shiftRight_eq_div_pow]
  omega

theorem toIpv4Mapped_eq : a.toIpv4Mapped =
    if mapped.range.Contains a then some (mapped.address a) else none := by
  have hmapped : a.extractLsb' 32 96 = 0xffff ↔ mapped.range.Contains a := by
    rw [contains_iff_first (show mapped.range.length ≤ 96 by decide) (by decide)]
    rfl
  unfold Ipv6Addr.toIpv4Mapped
  simp only [hmapped]
  rfl

theorem masked_segment_iff {p : AddressPrefix 128} {c mask : BitVec 16}
    (hlength : p.length ≤ 16) (hmask : mask = BitVec.allOnes 16 <<< (16 - p.length))
    (hbits : first 16 p.bits = c)
    (hc : c >>> (16 - p.length) <<< (16 - p.length) = c) :
    a.segment 0 &&& mask = c ↔ p.Contains a := by
  rw [segment_zero, hmask, masked_first_iff hlength (by decide) hc hbits]

theorem publicIpv6_iff : publicIpv6 a = true ↔
    if mapped.range.Contains a then publicIpv4 (mapped.address a) = true
    else ∀ b ∈ listedIpv6, ¬ b.Contains a := by
  unfold publicIpv6
  rw [toIpv4Mapped_eq]
  split_ifs with hmapped
  · rfl
  · have hunspecified : AddressPrefix.Contains (.v6 [0, 0, 0, 0, 0, 0, 0, 0] 128) a ↔
        a.isUnspecified := Iff.rfl
    have hloopback : AddressPrefix.Contains (.v6 [0, 0, 0, 0, 0, 0, 0, 1] 128) a ↔
        a.isLoopback := Iff.rfl
    have hmulticast : a.isMulticast ↔ AddressPrefix.Contains (.v6 [0xff00] 8) a :=
      masked_segment_iff (by decide) rfl rfl rfl
    have hlocal : a.segment 0 &&& 0xfe00 = 0xfc00 ↔ AddressPrefix.Contains (.v6 [0xfc00] 7) a :=
      masked_segment_iff (by decide) rfl rfl rfl
    have hlink : a.segment 0 &&& 0xffc0 = 0xfe80 ↔ AddressPrefix.Contains (.v6 [0xfe80] 10) a :=
      masked_segment_iff (by decide) rfl rfl rfl
    have hsite : a.segment 0 &&& 0xffc0 = 0xfec0 ↔ AddressPrefix.Contains (.v6 [0xfec0] 10) a :=
      masked_segment_iff (by decide) rfl rfl rfl
    have hdocumentation : AddressPrefix.Contains (.v6 [0x2001, 0xdb8] 32) a ↔
        a.segment 0 = 0x2001 ∧ a.segment 1 = 0x0db8 := contains_iff_segments rfl
    have hbenchmark : AddressPrefix.Contains (.v6 [0x2001, 2] 32) a ↔
        a.segment 0 = 0x2001 ∧ a.segment 1 = 0x0002 := contains_iff_segments rfl
    have htranslation : AddressPrefix.Contains (.v6 [0x64, 0xff9b] 32) a ↔
        a.segment 0 = 0x0064 ∧ a.segment 1 = 0xff9b := contains_iff_segments rfl
    unfold listedIpv6
    simp only [List.forall_mem_cons, decide_eq_true_eq, hunspecified, hloopback, hmulticast, hlocal,
      hlink, hsite, hdocumentation, hbenchmark, htranslation, ne_eq, not_or]
    simp [and_assoc]

end ipv6

/-! ## What the checks let through -/

/-- The reserved blocks that are not listed, without the parts of them that are. -/
def unlistedIpv6 : List (Block 128) :=
  [⟨.v6 [0x2001, 0] 23,
      [.v6 [0x2001, 1, 0, 0, 0, 0, 0, 1] 128, .v6 [0x2001, 1, 0, 0, 0, 0, 0, 2] 128,
        .v6 [0x2001, 1, 0, 0, 0, 0, 0, 3] 128, .v6 [0x2001, 3] 32, .v6 [0x2001, 4, 0x112] 48,
        .v6 [0x2001, 0x20] 28, .v6 [0x2001, 0x30] 28, .v6 [0x2001, 2] 32]⟩,
    ⟨.v6 [0x3fff, 0] 20, []⟩,
    ⟨.v6 [0] 8, [compatible.range, mapped.range, .v6 [0x64, 0xff9b] 32]⟩,
    ⟨.v6 [0x100] 8, []⟩, ⟨.v6 [0x200] 7, []⟩, ⟨.v6 [0x400] 6, []⟩, ⟨.v6 [0x800] 5, []⟩,
    ⟨.v6 [0x1000] 4, []⟩, ⟨.v6 [0x4000] 3, []⟩, ⟨.v6 [0x6000] 3, []⟩, ⟨.v6 [0x8000] 3, []⟩,
    ⟨.v6 [0xa000] 3, []⟩, ⟨.v6 [0xc000] 3, []⟩, ⟨.v6 [0xe000] 4, []⟩, ⟨.v6 [0xf000] 5, []⟩,
    ⟨.v6 [0xf800] 6, []⟩, ⟨.v6 [0xfe00] 9, []⟩]

/-- The addresses that the checks miss: of the compatible form and of the one of a relay router
when the address that they carry is not public, and those of the blocks that are not listed. -/
def IpAddr.Missed : IpAddr → Prop
  | .v4 _ => False
  | .v6 a =>
    compatible.range.Contains a ∧ a ≠ 0 ∧ a ≠ 1 ∧ publicIpv4 (compatible.address a) = false ∨
    sixToFour.range.Contains a ∧ publicIpv4 (sixToFour.address a) = false ∨
    ∃ b ∈ unlistedIpv6, b.Contains a

instance : DecidablePred IpAddr.Missed
  | .v4 _ => inferInstanceAs (Decidable False)
  | .v6 _ => inferInstanceAs (Decidable (_ ∨ _))

section missed
variable {a : Ipv6Addr}

theorem publicIpv6_of_not_mapped (hmapped : ¬ mapped.range.Contains a)
    (hlisted : ∀ l ∈ listedIpv6, ¬ l.Contains a) : publicIpv6 a = true := by
  rw [publicIpv6_iff, if_neg hmapped]
  exact hlisted

theorem publicIpv6_compatible (h : compatible.range.Contains a) (hzero : a ≠ 0) (hone : a ≠ 1) :
    publicIpv6 a = true := by
  have hapart : ∀ l ∈ mapped.range :: listedIpv6, compatible.range.Apart l ∨
      l = .v6 [0, 0, 0, 0, 0, 0, 0, 0] 128 ∨ l = .v6 [0, 0, 0, 0, 0, 0, 0, 1] 128 := by
    decide
  have hnot : ∀ l ∈ mapped.range :: listedIpv6, ¬ l.Contains a := by
    intro l hl
    rcases hapart l hl with hl | rfl | rfl
    · exact not_contains_of_apart hl h
    · exact hzero
    · exact hone
  obtain ⟨hmapped, hlisted⟩ := List.forall_mem_cons.mp hnot
  exact publicIpv6_of_not_mapped hmapped hlisted

theorem publicIpv6_sixToFour (h : sixToFour.range.Contains a) : publicIpv6 a = true := by
  have hapart : ∀ l ∈ mapped.range :: listedIpv6, sixToFour.range.Apart l := by decide
  have hnot : ∀ l ∈ mapped.range :: listedIpv6, ¬ l.Contains a := fun l hl =>
    not_contains_of_apart (hapart l hl) h
  obtain ⟨hmapped, hlisted⟩ := List.forall_mem_cons.mp hnot
  exact publicIpv6_of_not_mapped hmapped hlisted

/-- A block that is not listed is apart from the listed ones outside the parts left out. -/
theorem publicIpv6_unlisted {b : Block 128} (hb : b ∈ unlistedIpv6) (h : b.Contains a) :
    publicIpv6 a = true := by
  have hapart : ∀ b ∈ unlistedIpv6, ∀ l ∈ mapped.range :: listedIpv6,
      b.range.Apart l ∨ ∃ e ∈ b.except, l.Within e := by
    decide
  have hnot : ∀ l ∈ mapped.range :: listedIpv6, ¬ l.Contains a := by
    intro l hl
    rcases hapart b hb l hl with hl | ⟨e, he, hl⟩
    · exact not_contains_of_apart hl h.1
    · exact fun hla => h.2 e he (contains_of_within hl hla)
  obtain ⟨hmapped, hlisted⟩ := List.forall_mem_cons.mp hnot
  exact publicIpv6_of_not_mapped hmapped hlisted

/-- What is not listed of a reserved block makes up the blocks that are not listed. -/
theorem reserved_of_unlisted {b : Block 128} (hb : b ∈ unlistedIpv6) (h : b.Contains a) :
    ∃ r ∈ reservedIpv6, r.Contains a := by
  have hcover : ∀ b ∈ unlistedIpv6, ∃ r ∈ reservedIpv6, b.range.Within r.range ∧
      ∀ e ∈ r.except, ∃ e' ∈ b.except, e.Within e' := by
    decide
  obtain ⟨r, hr, hwithin, hexcept⟩ := hcover b hb
  refine ⟨r, hr, contains_of_within hwithin h.1, fun e he hea => ?_⟩
  obtain ⟨e', he', hee'⟩ := hexcept e he
  exact h.2 e' he' (contains_of_within hee' hea)

theorem not_reserved_of_mapped (h : mapped.range.Contains a) :
    ∀ r ∈ reservedIpv6, ¬ r.Contains a := by
  have hapart : ∀ r ∈ reservedIpv6, mapped.range.Apart r.range ∨
      ∃ e ∈ r.except, mapped.range.Within e := by
    decide
  intro r hr hra
  rcases hapart r hr with hr | ⟨e, he, hwithin⟩
  · exact not_contains_of_apart hr h hra.1
  · exact hra.2 e he (contains_of_within hwithin h)

theorem unlisted_of_reserved {r : Block 128} (hr : r ∈ reservedIpv6) (h : r.Contains a)
    (hlisted : ∀ l ∈ listedIpv6, ¬ l.Contains a) : ∃ b ∈ unlistedIpv6, b.Contains a := by
  have hcover : ∀ r ∈ reservedIpv6, (∃ l ∈ listedIpv6, r.range.Within l) ∨
      ∃ b ∈ unlistedIpv6, r.range.Within b.range ∧
        ∀ e ∈ b.except, e ∈ r.except ∨ e ∈ listedIpv6 := by
    decide
  rcases hcover r hr with ⟨l, hl, hwithin⟩ | ⟨b, hb, hwithin, hexcept⟩
  · exact absurd (contains_of_within hwithin h.1) (hlisted l hl)
  · refine ⟨b, hb, contains_of_within hwithin h.1, fun e he => ?_⟩
    rcases hexcept e he with he | he
    · exact h.2 e he
    · exact hlisted e he

/-- The forms other than the first three are listed. -/
theorem listed_of_nat64 {form : Embedding} (hform : form ∈ nat64 :: nat64Local)
    (h : form.range.Contains a) : ∃ l ∈ listedIpv6, l.Contains a := by
  have hranges : ∀ range ∈ (nat64 :: nat64Local).map Embedding.range,
      ∃ l ∈ listedIpv6, range.Within l := by
    decide
  obtain ⟨l, hl, hwithin⟩ := hranges form.range (List.mem_map_of_mem hform)
  exact ⟨l, hl, contains_of_within hwithin h⟩

end missed

/-! ## Addresses and destinations -/

theorem not_external_of_missed {address : IpAddr} (h : address.Missed) :
    publicIp address = true ∧ ¬ address.External := by
  cases address with
  | v4 a => exact h.elim
  | v6 a =>
    rcases h with ⟨hrange, hzero, hone, hcarried⟩ | ⟨hrange, hcarried⟩ | ⟨b, hb, hba⟩
    · refine ⟨publicIpv6_compatible hrange hzero hone, fun hexternal => ?_⟩
      have hpublic := hexternal.1 compatible (by simp [embeddings]) hrange
      rw [hcarried] at hpublic
      cases hpublic
    · refine ⟨publicIpv6_sixToFour hrange, fun hexternal => ?_⟩
      have hpublic := hexternal.1 sixToFour (by simp [embeddings]) hrange
      rw [hcarried] at hpublic
      cases hpublic
    · refine ⟨publicIpv6_unlisted hb hba, fun hexternal => ?_⟩
      obtain ⟨r, hr, hra⟩ := reserved_of_unlisted hb hba
      exact hexternal.2 r hr hra

/-- Of the forms, a mapped address has its own alone. -/
theorem carried_of_mapped {a : Ipv6Addr} (hmapped : mapped.range.Contains a)
    (hpublic : publicIpv4 (mapped.address a) = true) {form : Embedding}
    (hform : form ∈ embeddings) (h : form.range.Contains a) :
    publicIpv4 (form.address a) = true := by
  have hapart : ∀ range ∈ (compatible :: sixToFour :: nat64 :: nat64Local).map Embedding.range,
      mapped.range.Apart range := by
    decide
  rcases List.mem_cons.mp hform with rfl | hform
  · exact hpublic
  · have hnot := not_contains_of_apart (hapart form.range (List.mem_map_of_mem hform)) hmapped
    exact absurd h hnot

theorem carried_of_listed {a : Ipv6Addr} (hmapped : ¬ mapped.range.Contains a)
    (hlisted : ∀ l ∈ listedIpv6, ¬ l.Contains a) (hmissed : ¬ (IpAddr.v6 a).Missed)
    {form : Embedding} (hform : form ∈ embeddings) (h : form.range.Contains a) :
    publicIpv4 (form.address a) = true := by
  obtain ⟨hcompatible, hmissed⟩ := not_or.mp hmissed
  obtain ⟨hrelay, -⟩ := not_or.mp hmissed
  obtain ⟨hzero, hlisted'⟩ := List.forall_mem_cons.mp hlisted
  obtain ⟨hone, -⟩ := List.forall_mem_cons.mp hlisted'
  rcases List.mem_cons.mp hform with rfl | hform
  · exact absurd h hmapped
  rcases List.mem_cons.mp hform with rfl | hform
  · by_contra hcarried
    exact hcompatible ⟨h, hzero, hone, Bool.eq_false_iff.mpr hcarried⟩
  rcases List.mem_cons.mp hform with rfl | hform
  · by_contra hcarried
    exact hrelay ⟨h, Bool.eq_false_iff.mpr hcarried⟩
  · obtain ⟨l, hl, hla⟩ := listed_of_nat64 hform h
    exact absurd hla (hlisted l hl)

theorem external_of_not_missed {address : IpAddr} (hpublic : publicIp address = true)
    (h : ¬ address.Missed) : address.External := by
  cases address with
  | v4 a => exact publicIpv4_iff.mp hpublic
  | v6 a =>
    have hchecks := publicIpv6_iff.mp hpublic
    by_cases hmapped : mapped.range.Contains a
    · rw [if_pos hmapped] at hchecks
      exact ⟨fun form hform => carried_of_mapped hmapped hchecks hform,
        not_reserved_of_mapped hmapped⟩
    · rw [if_neg hmapped] at hchecks
      refine ⟨fun form hform => carried_of_listed hmapped hchecks h hform, fun r hr hra => ?_⟩
      exact h (.inr (.inr (unlisted_of_reserved hr hra hchecks)))

/-- An address that the checks accept is outside the reserved blocks. -/
def IpAddr.KeptOut (address : IpAddr) : Prop := publicIp address = true → address.External

theorem keptOut_iff (address : IpAddr) : address.KeptOut ↔ ¬ address.Missed := by
  constructor
  · intro hkept hmissed
    obtain ⟨hpublic, hnot⟩ := not_external_of_missed hmissed
    exact hnot (hkept hpublic)
  · exact fun h hpublic => external_of_not_missed hpublic h

section destinations
variable {host : Option String} {parse : String → Option IpAddr}
  {lookupHost : String → Option (List SocketAddr)}

/-- What the host reads as, how many addresses it has or one of these is refused. -/
def Refused (parse : String → Option IpAddr) (host : String) (found : List SocketAddr) : Prop :=
  (∃ literal ∈ parse host, publicIp literal = false) ∨
    16 < (sortDedup SocketAddr.key found).length ∨ ∃ x ∈ found, publicIp x.ip = false

theorem any_literal {h : String} :
    ((parse h).any fun address => !publicIp address) = true ↔
      ∃ literal ∈ parse h, publicIp literal = false := by
  cases parse h with
  | none => simp
  | some literal => simp

theorem any_address {found : List SocketAddr} :
    ((sortDedup SocketAddr.key found).any fun x => !publicIp x.ip) = true ↔
      ∃ x ∈ found, publicIp x.ip = false := by
  simp only [List.any_eq_true, mem_sortDedup, Bool.not_eq_true']

theorem resolve_found {h : String} {found : List SocketAddr} (hfound : lookupHost h = some found) :
    resolvePublicDestination (some h) parse lookupHost =
      if (parse h).any fun address => !publicIp address then .error .unsafeDestination
      else if (sortDedup SocketAddr.key found).isEmpty then .error .unavailable
      else if 16 < (sortDedup SocketAddr.key found).length ∨
          (sortDedup SocketAddr.key found).any fun x => !publicIp x.ip then
        .error .unsafeDestination
      else .ok (sortDedup SocketAddr.key found) := by
  unfold resolvePublicDestination
  simp only [Option.elim_some, bind, Except.bind, hfound]

/-- The addresses that are handed on are all that the host resolves to, once each. -/
theorem mem_of_resolve {addresses : List SocketAddr} {h : String} {found : List SocketAddr}
    (hfound : lookupHost h = some found)
    (hok : resolvePublicDestination (some h) parse lookupHost = .ok addresses) :
    ¬ Refused parse h found ∧ addresses = sortDedup SocketAddr.key found := by
  rw [resolve_found hfound] at hok
  split_ifs at hok with hliteral hempty hrefused
  cases hok
  obtain ⟨hcount, haddress⟩ := not_or.mp hrefused
  refine ⟨?_, rfl⟩
  rintro (hr | hr | hr)
  · exact hliteral (any_literal.mpr hr)
  · exact hcount hr
  · exact haddress (any_address.mpr hr)

theorem resolve_of_not_refused {h : String} {found : List SocketAddr}
    (hfound : lookupHost h = some found) (hne : found ≠ []) (hnot : ¬ Refused parse h found) :
    resolvePublicDestination (some h) parse lookupHost =
      .ok (sortDedup SocketAddr.key found) := by
  have hliteral := fun hany => hnot (.inl (any_literal.mp hany))
  have hempty : ¬ (sortDedup SocketAddr.key found).isEmpty = true := by
    obtain ⟨x, hx⟩ := List.exists_mem_of_ne_nil found hne
    intro hempty
    have hnil := List.isEmpty_iff.mp hempty
    have hmem := (mem_sortDedup SocketAddr.key x found).mpr hx
    rw [hnil] at hmem
    cases hmem
  have hrest : ¬ (16 < (sortDedup SocketAddr.key found).length ∨
      ((sortDedup SocketAddr.key found).any fun x => !publicIp x.ip) = true) := by
    rintro (hr | hr)
    · exact hnot (.inr (.inl hr))
    · exact hnot (.inr (.inr (any_address.mp hr)))
  rw [resolve_found hfound, if_neg hliteral, if_neg hempty, if_neg hrest]

/-- Every address that is handed to the client is outside the reserved blocks. -/
def HandsExternal (host : Option String) (parse : String → Option IpAddr)
    (lookupHost : String → Option (List SocketAddr)) : Prop :=
  ∀ addresses, resolvePublicDestination host parse lookupHost = .ok addresses →
    ∀ x ∈ addresses, x.ip.External

theorem resolve_host {addresses : List SocketAddr}
    (hok : resolvePublicDestination host parse lookupHost = .ok addresses) :
    ∃ h found, host = some h ∧ lookupHost h = some found := by
  cases host with
  | none => cases hok
  | some h =>
    cases hfound : lookupHost h with
    | none =>
      unfold resolvePublicDestination at hok
      simp only [Option.elim_some, bind, Except.bind, hfound, Option.elim_none] at hok
      split_ifs at hok
    | some found => exact ⟨h, found, rfl, hfound⟩

theorem handsExternal_iff : HandsExternal host parse lookupHost ↔
    ∀ h found, host = some h → lookupHost h = some found →
      Refused parse h found ∨ ∀ x ∈ found, ¬ x.ip.Missed := by
  constructor
  · rintro hands h found rfl hfound
    by_contra hnot
    obtain ⟨hrefused, hmissed⟩ := not_or.mp hnot
    obtain ⟨x, hx, hxm⟩ : ∃ x ∈ found, x.ip.Missed := by
      by_contra hnone
      exact hmissed fun x hx hxm => hnone ⟨x, hx, hxm⟩
    have hok := resolve_of_not_refused hfound (List.ne_nil_of_mem hx) hrefused
    have hexternal := hands _ hok x ((mem_sortDedup SocketAddr.key x found).mpr hx)
    exact (not_external_of_missed hxm).2 hexternal
  · intro hcondition addresses hok x hx
    obtain ⟨h, found, rfl, hfound⟩ := resolve_host hok
    obtain ⟨hrefused, rfl⟩ := mem_of_resolve hfound hok
    have hmem := (mem_sortDedup SocketAddr.key x found).mp hx
    have hmissed := (hcondition h found rfl hfound).resolve_left hrefused x hmem
    have hpublic : publicIp x.ip = true := by
      by_contra hnot
      exact hrefused (.inr (.inr ⟨x, hmem, Bool.eq_false_iff.mpr hnot⟩))
    exact external_of_not_missed hpublic hmissed

end destinations

/-- The checks keep out the reserved blocks and the carried addresses just for the addresses that
they do not miss, and so do the destinations that they admit. -/
theorem keptOut_iff_not_missed (address : IpAddr) :
    (address.KeptOut ↔ ¬ address.Missed) ∧
      ∀ host parse lookupHost, HandsExternal host parse lookupHost ↔
        ∀ h found, host = some h → lookupHost h = some found →
          Refused parse h found ∨ ∀ x ∈ found, ¬ x.ip.Missed :=
  ⟨keptOut_iff address, fun _ _ _ => handsExternal_iff⟩

/-- `2002:7f00:1::` leads a relay router to `127.0.0.1`, `::10.0.0.1` is of the compatible form
and `3fff::1` is for documentation. -/
theorem accepts_loopback :
    (¬ ∀ address : IpAddr, address.KeptOut) ∧
      ∀ bits ∈ [0x20027f000001 <<< 80, 0x0a000001, 0x3fff <<< 112 ||| 1],
        publicIp (.v6 bits) = true ∧ ¬ (IpAddr.v6 bits).External := by
  have hmissed : ∀ bits ∈ [0x20027f000001 <<< 80, 0x0a000001, 0x3fff <<< 112 ||| 1],
      (IpAddr.v6 bits).Missed := by
    decide
  have hall := fun bits hbits => not_external_of_missed (hmissed bits hbits)
  refine ⟨fun hkept => ?_, hall⟩
  obtain ⟨hpublic, hnot⟩ := hall 0x0a000001 (by simp)
  exact hnot (hkept _ hpublic)

end FaultLane.PublicAddresses
