import OpcWire.Builtin.DiagnosticInfo
import OpcWire.Proofs.Builtin.Text

/-!
# The codec of diagnostics

One level is a mask and the members that it announces; `Announces` says that a mask and the
members of a level belong together. The reader counts the levels that it may still go down, so
the statements about it go by induction on that number:

* `DiagnosticInfo.readsIf_within` : diagnostics are read back if they have no more inner levels
  than the reader may follow, and refused if they have more;
* `DiagnosticInfo.ensures_within` : diagnostics that are read have no more inner levels than that.
-/

namespace OpcWire

namespace DiagnosticInfo

variable {d : Nat} {bytes : List UInt8}

/-! ### Masks -/

/-- The mask has the bit of a member exactly if the member is present. -/
structure Announces (mask : UInt8) (x : Details) : Prop where
  symbolicId : mask &&& symbolicIdBit = 0 ↔ x.symbolicId.isSome = false
  namespaceUri : mask &&& namespaceUriBit = 0 ↔ x.namespaceUri.isSome = false
  locale : mask &&& localeBit = 0 ↔ x.locale.isSome = false
  localizedText : mask &&& localizedTextBit = 0 ↔ x.localizedText.isSome = false
  additionalInfo : mask &&& additionalInfoBit = 0 ↔ x.additionalInfo.isSome = false
  innerStatusCode : mask &&& innerStatusCodeBit = 0 ↔ x.innerStatusCode.isSome = false

/-- The mask as a function of which members are present. -/
def maskOf (a b c d e f : Bool) : UInt8 :=
  (if a then symbolicIdBit else 0) ||| (if b then namespaceUriBit else 0) |||
    (if c then localizedTextBit else 0) ||| (if d then localeBit else 0) |||
    (if e then additionalInfoBit else 0) ||| (if f then innerStatusCodeBit else 0)

/-- The bits do not overlap, nor do they with the bit of inner diagnostics. -/
theorem maskOf_and : ∀ a b c d e f inner : Bool,
    let mask := maskOf a b c d e f ||| if inner then innerBit else 0
    (mask &&& symbolicIdBit = 0 ↔ a = false) ∧ (mask &&& namespaceUriBit = 0 ↔ b = false) ∧
      (mask &&& localizedTextBit = 0 ↔ c = false) ∧ (mask &&& localeBit = 0 ↔ d = false) ∧
      (mask &&& additionalInfoBit = 0 ↔ e = false) ∧
      (mask &&& innerStatusCodeBit = 0 ↔ f = false) ∧ (mask &&& innerBit = 0 ↔ inner = false) := by
  decide +kernel

theorem announces_mask (x : Details) (inner : Bool) :
    Announces (x.mask ||| if inner then innerBit else 0) x := by
  obtain ⟨ha, hb, hc, hd, he, hf, -⟩ := maskOf_and x.symbolicId.isSome x.namespaceUri.isSome
    x.localizedText.isSome x.locale.isSome x.additionalInfo.isSome x.innerStatusCode.isSome inner
  -- the mask lists the text before the locale, the members come the other way round
  exact ⟨ha, hb, hd, hc, he, hf⟩

theorem mask_and_innerBit (x : Details) (inner : Bool) :
    (x.mask ||| if inner then innerBit else 0) &&& innerBit = 0 ↔ inner = false :=
  (maskOf_and x.symbolicId.isSome x.namespaceUri.isSome x.localizedText.isSome x.locale.isSome
    x.additionalInfo.isSome x.innerStatusCode.isSome inner).2.2.2.2.2.2

/-! ### Members -/

section Member

variable {α : Type} {codec : Codec α} {mask bit : UInt8} {member : Option α}

theorem reads_member (hcodec : codec.Lawful fun _ => True)
    (hmask : mask &&& bit = 0 ↔ member.isSome = false)
    (h : encodeMember codec member = .ofBytes bytes) :
    (decodeMember codec mask bit).Reads d bytes member := by
  rw [decodeMember]
  cases member with
  | none =>
    obtain rfl : [] = bytes := Encoding.ofBytes_inj.1 h
    rw [if_pos (hmask.2 rfl)]
    exact Reader.reads_pure
  | some a =>
    rw [if_neg fun hbit => nomatch hmask.1 hbit]
    exact (hcodec.reads h).map

theorem prefixCode_member (hcodec : codec.Lawful fun _ => True) :
    (decodeMember codec mask bit).PrefixCode :=
  Reader.prefixCode_pure.ite hcodec.prefixCode.map

theorem ensures_member (hcodec : codec.Lawful fun _ => True) :
    (decodeMember codec mask bit).Ensures d fun member k => (encodeMember codec member).Fits k :=
  Reader.Ensures.ite (fun _ => Reader.ensures_pure Encoding.fits_empty) fun _ =>
    (hcodec.fitsOnly d).map fun _ _ h => h

end Member

/-! ### One level -/

theorem Details.reads {mask : UInt8} {x : Details} (hmask : Announces mask x)
    (h : x.encode = .ofBytes bytes) : (Details.decode mask).Reads d bytes x := by
  obtain ⟨upToInfo, status, hinfos, hstatus, rfl⟩ := Encoding.append_eq_ofBytes_iff.1 h
  obtain ⟨upToText, info, htexts, hinfo, rfl⟩ := Encoding.append_eq_ofBytes_iff.1 hinfos
  obtain ⟨upToLocale, text, hlocales, htext, rfl⟩ := Encoding.append_eq_ofBytes_iff.1 htexts
  obtain ⟨upToUri, locale, huris, hlocale, rfl⟩ := Encoding.append_eq_ofBytes_iff.1 hlocales
  obtain ⟨symbol, uri, hsymbol, huri, rfl⟩ := Encoding.append_eq_ofBytes_iff.1 huris
  simp only [List.append_assoc]
  refine (reads_member Codec.lawful_int32 hmask.symbolicId hsymbol).bind ?_
  refine (reads_member Codec.lawful_int32 hmask.namespaceUri huri).bind ?_
  refine (reads_member Codec.lawful_int32 hmask.locale hlocale).bind ?_
  refine (reads_member Codec.lawful_int32 hmask.localizedText htext).bind ?_
  refine (reads_member Codec.lawful_string hmask.additionalInfo hinfo).bind ?_
  exact (reads_member StatusCode.lawful_codec hmask.innerStatusCode hstatus).map

theorem Details.prefixCode (mask : UInt8) : (Details.decode mask).PrefixCode :=
  (prefixCode_member Codec.lawful_int32).bind fun _ =>
    (prefixCode_member Codec.lawful_int32).bind fun _ =>
      (prefixCode_member Codec.lawful_int32).bind fun _ =>
        (prefixCode_member Codec.lawful_int32).bind fun _ =>
          (prefixCode_member Codec.lawful_string).bind fun _ =>
            (prefixCode_member StatusCode.lawful_codec).bind fun _ => Reader.prefixCode_pure

theorem Details.ensures (mask : UInt8) :
    (Details.decode mask).Ensures d fun x k => x.encode.Fits k := by
  refine (ensures_member Codec.lawful_int32).bind fun symbol k₁ hsymbol => ?_
  refine (ensures_member Codec.lawful_int32).bind fun uri k₂ huri => ?_
  refine (ensures_member Codec.lawful_int32).bind fun locale k₃ hlocale => ?_
  refine (ensures_member Codec.lawful_int32).bind fun text k₄ htext => ?_
  refine (ensures_member Codec.lawful_string).bind fun info k₅ hinfo => ?_
  refine (ensures_member StatusCode.lawful_codec).bind fun status k₆ hstatus => ?_
  refine Reader.ensures_pure (Encoding.Fits.mono (j := k₁ + k₂ + k₃ + k₄ + k₅ + k₆) ?_ (by omega))
  exact ((((hsymbol.append huri).append hlocale).append htext).append hinfo).append hstatus

/-! ### Levels within levels -/

/-- Read what follows the members of a level, of which `announced` says whether it is anything. -/
def decodeInner (x : Details) (announced : Bool) : (allowed : Nat) → Reader DiagnosticInfo
  | 0 => if announced then .fail (.nestingTooDeep maxDepth) else pure (plain x)
  | allowed + 1 => if announced then around x <$> decodeWithin allowed else pure (plain x)

theorem decodeWithin_eq (allowed : Nat) : decodeWithin allowed =
    Reader.byte >>= fun mask => Details.decode mask >>= fun x =>
      decodeInner x (mask &&& innerBit != 0) allowed := by
  rw [decodeWithin.eq_def]
  congr 1
  funext mask
  congr 1
  funext x
  by_cases h : mask &&& innerBit = 0 <;> cases allowed <;> simp [decodeInner, h]

/-- **Diagnostics are read back exactly if they do not nest too deep.** -/
theorem readsIf_within {x : DiagnosticInfo} {allowed : Nat} (h : x.encode = .ofBytes bytes) :
    (decodeWithin allowed).ReadsIf (x.depth ≤ allowed) d bytes x := by
  -- each level uses up one of those allowed, so `allowed` varies along the chain
  induction x generalizing allowed bytes with
  | plain x =>
    obtain ⟨front, members, hfront, hmembers, rfl⟩ := Encoding.append_eq_ofBytes_iff.1 h
    obtain rfl := Encoding.ofBytes_inj.1 hfront
    have hmask := announces_mask x false
    have hinner := (mask_and_innerBit x false).2 rfl
    simp only [Bool.false_eq_true, ↓reduceIte, UInt8.or_zero] at hmask hinner
    rw [decodeWithin_eq]
    refine Reader.Reads.readsIf (Reader.reads_byte.bind ?_) (Nat.zero_le allowed)
    refine (Details.reads hmask hmembers).bind_nil ?_
    rw [hinner]
    cases allowed <;> exact Reader.reads_pure
  | around x inner ih =>
    obtain ⟨front, rest, hfront, hrest, rfl⟩ := Encoding.append_eq_ofBytes_iff.1 h
    obtain ⟨leading, members, hleading, hmembers, rfl⟩ := Encoding.append_eq_ofBytes_iff.1 hfront
    obtain rfl := Encoding.ofBytes_inj.1 hleading
    have hmask := announces_mask x true
    have hinner := mt (mask_and_innerBit x true).1 nofun
    simp only [↓reduceIte] at hmask hinner
    rw [decodeWithin_eq, List.append_assoc]
    refine Reader.reads_byte.bind_readsIf ((Details.reads hmask hmembers).bind_readsIf ?_)
    rw [bne_iff_ne.2 hinner]
    cases allowed with
    | zero =>
      refine Reader.Refuses.readsIf (fun rest => ?_) (Nat.not_succ_le_zero _)
      exact ⟨_, _, rfl, .inr rfl⟩
    | succ allowed => exact (ih hrest).map.congr Nat.succ_le_succ_iff.symm

theorem prefixCode_within (allowed : Nat) : (decodeWithin allowed).PrefixCode := by
  induction allowed with
  | zero =>
    rw [decodeWithin_eq]
    refine Reader.prefixCode_byte.bind fun mask => (Details.prefixCode mask).bind fun x => ?_
    exact Reader.prefixCode_fail.ite Reader.prefixCode_pure
  | succ allowed ih =>
    rw [decodeWithin_eq]
    refine Reader.prefixCode_byte.bind fun mask => (Details.prefixCode mask).bind fun x => ?_
    exact ih.map.ite Reader.prefixCode_pure

/-- Whether and how a level without inner diagnostics ends does not matter to its size. -/
theorem fits_plain {x : Details} {k : Nat} (h : x.encode.Fits k) : (plain x).encode.Fits (1 + k) :=
  Encoding.fits_byte.append h

theorem ensures_within (allowed : Nat) :
    (decodeWithin allowed).Ensures d fun x k => x.encode.Fits k ∧ x.depth ≤ allowed := by
  induction allowed with
  | zero =>
    rw [decodeWithin_eq]
    refine Reader.ensures_byte.bind fun mask i hi => (Details.ensures mask).bind fun x j hx => ?_
    subst hi
    refine Reader.Ensures.ite (fun _ => Reader.ensures_fail) fun _ => Reader.ensures_pure ?_
    exact ⟨fits_plain hx, Nat.le_refl 0⟩
  | succ allowed ih =>
    rw [decodeWithin_eq]
    refine Reader.ensures_byte.bind fun mask i hi => (Details.ensures mask).bind fun x j hx => ?_
    subst hi
    refine Reader.Ensures.ite (fun _ => ?_) fun _ => Reader.ensures_pure ?_
    · refine ih.map fun inner k ⟨hinner, hdepth⟩ => ⟨?_, Nat.succ_le_succ hdepth⟩
      rw [← Nat.add_assoc]
      exact (Encoding.fits_byte.append hx).append hinner
    · exact ⟨fits_plain hx, Nat.zero_le _⟩

theorem lawful_codec : codec.Lawful fun x => x.depth ≤ maxDepth where
  readsIf _ _ _ h := readsIf_within h
  prefixCode := prefixCode_within maxDepth
  rewrites _ := ensures_within maxDepth

end DiagnosticInfo

end OpcWire
