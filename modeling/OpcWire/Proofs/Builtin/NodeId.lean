import OpcWire.Builtin.NodeId
import OpcWire.Proofs.Builtin.Text

/-!
# Codecs of node identifiers

The leading byte of an identifier is the form's byte with flags above it, and neither disturbs the
other (`NodeId.Form.or_and_formMask`, `ExpandedNodeId.leading_and_namespaceUriFlag`). A numeric
identifier is written in the first form that holds it, so that whatever form it was read from is
no shorter (`NodeId.ensures_body`). A flagged but zero server index and an identifier in a form
too long for it are accepted, and written again without the excess.
-/

namespace OpcWire

namespace NodeId

variable {d : Nat} {flags : UInt8} {bytes : List UInt8} {n : NodeId}

/-! ### The leading byte -/

theorem Form.ofByte?_toByte (form : Form) : ofByte? form.toByte = some form := by
  cases form <;> rfl

theorem or_and (a b mask : UInt8) : (a ||| b) &&& mask = (a &&& mask) ||| (b &&& mask) := by
  apply UInt8.toBitVec_inj.1
  ext i
  simp [Bool.and_or_distrib_right]

/-- Flags outside the form bits leave the form readable. -/
theorem Form.or_and_formMask (form : Form) (h : flags &&& formMask = 0) :
    (form.toByte ||| flags) &&& formMask = form.toByte := by
  rw [or_and, h, UInt8.or_zero]
  cases form <;> rfl

/-! ### Identifiers behind a namespace -/

/-- Read a namespace in two bytes and an identifier. -/
def decodeIndexed {α : Type} (c : Codec α) (f : α → Identifier) : Reader NodeId := do
  let namespaceIndex ← Reader.uint16
  let a ← c.decode
  return ⟨namespaceIndex, f a⟩

section Indexed

variable {α : Type} {c : Codec α} (hc : c.Lawful fun _ => True) (f : α → Identifier)
include hc

theorem reads_indexed {namespaceIndex : UInt16} {a : α}
    (h : .word 2 namespaceIndex.toNat ++ c.encode a = .ofBytes bytes) :
    (decodeIndexed c f).Reads d bytes ⟨namespaceIndex, f a⟩ := by
  obtain ⟨front, content, hfront, hcontent, rfl⟩ := Encoding.append_eq_ofBytes_iff.1 h
  exact (Codec.lawful_uint16.reads hfront).bind (hc.reads hcontent).map

theorem prefixCode_indexed : (decodeIndexed c f).PrefixCode := by
  refine Reader.prefixCode_uint16.bind fun _ => hc.prefixCode.bind fun _ => ?_
  exact Reader.prefixCode_pure

theorem ensures_indexed (hencode : ∀ namespaceIndex a, encodeBody ⟨namespaceIndex, f a⟩ =
    .word 2 namespaceIndex.toNat ++ c.encode a) :
    (decodeIndexed c f).Ensures d fun n k => n.encodeBody.Fits k := by
  refine Reader.ensures_uint16.bind fun index j hj => ?_
  subst hj
  refine (hc.fitsOnly d).map fun a k ha => ?_
  rw [hencode]
  exact Encoding.fits_word.append ha

end Indexed

/-! ### Reading back -/

theorem toUInt32_ofNat8 {id : UInt32} (h : id ≤ 0xFF) : (UInt8.ofNat id.toNat).toUInt32 = id := by
  have hle : id.toNat ≤ 0xFF := h
  apply UInt32.toNat_inj.1
  rw [UInt8.toNat_toUInt32, UInt8.toNat_ofNat', Nat.mod_eq_of_lt (by omega)]

theorem toUInt32_ofNat16 {id : UInt32} (h : id ≤ 0xFFFF) :
    (UInt16.ofNat id.toNat).toUInt32 = id := by
  have hle : id.toNat ≤ 0xFFFF := h
  apply UInt32.toNat_inj.1
  rw [UInt16.toNat_toUInt32, UInt16.toNat_ofNat', Nat.mod_eq_of_lt (by omega)]

theorem toUInt16_ofNat8 {index : UInt16} (h : index ≤ 0xFF) :
    (UInt8.ofNat index.toNat).toUInt16 = index := by
  have hle : index.toNat ≤ 0xFF := h
  apply UInt16.toNat_inj.1
  rw [UInt8.toNat_toUInt16, UInt8.toNat_ofNat', Nat.mod_eq_of_lt (by omega)]

theorem reads_numeric {namespaceIndex : UInt16} {id : UInt32}
    (h : (numeric namespaceIndex id).encodeBody = .ofBytes bytes) :
    (decodeBody (numeric namespaceIndex id).form).Reads d bytes (numeric namespaceIndex id) := by
  simp only [encodeBody, form, numeric] at h ⊢
  -- one case for each numeric form; in the short ones no digit is lost
  by_cases htwo : namespaceIndex = 0 ∧ id ≤ 0xFF
  · simp only [htwo, and_self, ↓reduceIte] at h ⊢
    obtain ⟨rfl, hid⟩ := htwo
    have hle : id.toNat ≤ 0xFF := hid
    obtain rfl := Encoding.ofBytes_inj.1 h
    have hread := ((Reader.reads_word 1 (d := d) (n := id.toNat) (by omega)).map
      (g := UInt8.ofNat)).map (g := fun x => numeric 0 x.toUInt32)
    rwa [toUInt32_ofNat8 hid] at hread
  by_cases hfour : namespaceIndex ≤ 0xFF ∧ id ≤ 0xFFFF
  · simp only [htwo, hfour, and_self, ↓reduceIte] at h ⊢
    obtain ⟨hindex, hid⟩ := hfour
    have hindex' : namespaceIndex.toNat ≤ 0xFF := hindex
    have hid' : id.toNat ≤ 0xFFFF := hid
    obtain ⟨front, number, hfront, hnumber, rfl⟩ := Encoding.append_eq_ofBytes_iff.1 h
    obtain rfl := Encoding.ofBytes_inj.1 hfront
    obtain rfl := Encoding.ofBytes_inj.1 hnumber
    refine (Reader.reads_word 1 (by omega)).map.bind ?_
    have hread := ((Reader.reads_word 2 (d := d) (n := id.toNat) (by omega)).map
      (g := UInt16.ofNat)).map (g := fun x => numeric namespaceIndex x.toUInt32)
    rw [toUInt32_ofNat16 hid] at hread
    rwa [toUInt16_ofNat8 hindex]
  · simp only [htwo, hfour, ↓reduceIte] at h ⊢
    exact reads_indexed Codec.lawful_uint32 .numeric h

theorem reads_body (h : n.encodeBody = .ofBytes bytes) :
    (decodeBody n.form).Reads d bytes n := by
  obtain ⟨namespaceIndex, identifier⟩ := n
  cases identifier with
  | numeric id => exact reads_numeric h
  | string id => exact reads_indexed Codec.lawful_string .string h
  | guid id => exact reads_indexed Guid.lawful_codec .guid h
  | byteString id => exact reads_indexed ByteString.lawful_codec .byteString h

/-- The identifier and its leading byte are read back, whatever flags the byte carries. -/
theorem reads_flagged (hflags : flags &&& formMask = 0)
    (h : n.encodeFlagged flags = .ofBytes bytes) :
    decodeFlagged.Reads d bytes (n, n.form.toByte ||| flags) := by
  obtain ⟨front, content, hfront, hcontent, rfl⟩ := Encoding.append_eq_ofBytes_iff.1 h
  obtain rfl := Encoding.ofBytes_inj.1 hfront
  refine Reader.reads_byte.bind ?_
  rw [Form.or_and_formMask n.form hflags, Form.ofByte?_toByte]
  exact (reads_body hcontent).map

/-! ### Prefix codes -/

theorem prefixCode_body (form : Form) : (decodeBody form).PrefixCode := by
  cases form with
  | twoByte => exact Reader.prefixCode_byte.bind fun _ => Reader.prefixCode_pure
  | fourByte =>
    exact Reader.prefixCode_byte.bind fun _ =>
      Reader.prefixCode_uint16.bind fun _ => Reader.prefixCode_pure
  | numeric => exact prefixCode_indexed Codec.lawful_uint32 .numeric
  | string => exact prefixCode_indexed Codec.lawful_string .string
  | guid => exact prefixCode_indexed Guid.lawful_codec .guid
  | byteString => exact prefixCode_indexed ByteString.lawful_codec .byteString

theorem prefixCode_flagged : decodeFlagged.PrefixCode := by
  refine Reader.prefixCode_byte.bind fun leading => ?_
  split
  · exact Reader.prefixCode_fail
  · exact (prefixCode_body _).bind fun _ => Reader.prefixCode_pure

/-! ### Writing again -/

theorem fits_numeric (namespaceIndex : UInt16) (id : UInt32) :
    (numeric namespaceIndex id).encodeBody.Fits
      (if namespaceIndex = 0 ∧ id ≤ 0xFF then 1
        else if namespaceIndex ≤ 0xFF ∧ id ≤ 0xFFFF then 3 else 6) := by
  simp only [encodeBody, form, numeric]
  by_cases htwo : namespaceIndex = 0 ∧ id ≤ 0xFF
  · simp only [htwo, and_self, ↓reduceIte]
    exact Encoding.fits_word
  by_cases hfour : namespaceIndex ≤ 0xFF ∧ id ≤ 0xFFFF
  · simp only [htwo, hfour, and_self, ↓reduceIte]
    exact Encoding.fits_word.append Encoding.fits_word
  · simp only [htwo, hfour, ↓reduceIte]
    exact Encoding.fits_word.append Encoding.fits_word

/-- Whatever form an identifier is read from, it is written in no more bytes. -/
theorem ensures_body (form : Form) :
    (decodeBody form).Ensures d fun n k => n.encodeBody.Fits k := by
  cases form with
  | twoByte =>
    refine Reader.ensures_byte.bind fun id k hk => Reader.ensures_pure ?_
    have hid : id.toUInt32 ≤ 0xFF := by
      rw [UInt32.le_iff_toNat_le, UInt8.toNat_toUInt32]
      exact Nat.le_of_lt_succ id.toNat_lt
    have hfits := fits_numeric 0 id.toUInt32
    rw [if_pos ⟨rfl, hid⟩] at hfits
    exact hfits.mono (by omega)
  | fourByte =>
    refine Reader.ensures_byte.bind fun index j hj => ?_
    refine Reader.ensures_uint16.bind fun id k hk => Reader.ensures_pure ?_
    have hindex : index.toUInt16 ≤ 0xFF := by
      rw [UInt16.le_iff_toNat_le, UInt8.toNat_toUInt16]
      exact Nat.le_of_lt_succ index.toNat_lt
    have hid : id.toUInt32 ≤ 0xFFFF := by
      rw [UInt32.le_iff_toNat_le, UInt16.toNat_toUInt32]
      exact Nat.le_of_lt_succ id.toNat_lt
    -- a number read from four bytes may fit into two
    refine (fits_numeric index.toUInt16 id.toUInt32).mono ?_
    rw [if_pos (show _ ∧ _ from ⟨hindex, hid⟩)]
    split <;> omega
  | numeric =>
    refine Reader.ensures_uint16.bind fun index j hj => ?_
    refine Reader.ensures_uint32.bind fun id k hk => Reader.ensures_pure ?_
    refine (fits_numeric index id).mono ?_
    split
    · omega
    · split <;> omega
  | string => exact ensures_indexed Codec.lawful_string .string fun _ _ => rfl
  | guid => exact ensures_indexed Guid.lawful_codec .guid fun _ _ => rfl
  | byteString => exact ensures_indexed ByteString.lawful_codec .byteString fun _ _ => rfl

/-- The flags to be written need not be those that were read. -/
theorem ensures_flagged : decodeFlagged.Ensures d fun x k => ∀ flags,
    (x.1.encodeFlagged flags).Fits k := by
  refine Reader.ensures_byte.bind fun leading j hj => ?_
  split
  · exact Reader.ensures_fail
  · subst hj
    exact (ensures_body _).map fun n k hn flags => Encoding.fits_byte.append hn

theorem lawful_codec : codec.Lawful fun _ => True := by
  refine .of_reads (fun n bytes d h => ?_) ?_ fun d => ?_
  · have hnone : (0 : UInt8) &&& formMask = 0 := rfl
    refine (reads_flagged hnone h).bind_nil ?_
    have hflags : (n.form.toByte ||| 0) &&& ~~~formMask = 0 := by
      cases n.form <;> decide
    simp only [hflags, ↓reduceIte]
    exact Reader.reads_pure
  · exact prefixCode_flagged.bind fun _ => Reader.prefixCode_pure.ite Reader.prefixCode_fail
  · refine ensures_flagged.bind fun x k hx => ?_
    exact Reader.Ensures.ite (fun _ => Reader.ensures_pure (hx 0)) fun _ => Reader.ensures_fail

end NodeId

/-! ### Expanded node identifiers -/

namespace ExpandedNodeId

open NodeId (namespaceUriFlag serverIndexFlag formMask)

variable {d : Nat} {x : ExpandedNodeId}

theorem flags_and_formMask : x.flags &&& formMask = 0 := by
  rw [flags]
  cases x.namespaceUri.isSome <;> by_cases h : x.serverIndex = 0 <;> simp only [h, ↓reduceIte] <;>
    decide

theorem leading_and_namespaceUriFlag (form : NodeId.Form) :
    (form.toByte ||| x.flags) &&& namespaceUriFlag = 0 ↔ x.namespaceUri.isSome = false := by
  rw [flags]
  by_cases h : x.serverIndex = 0 <;> simp only [h, ↓reduceIte] <;>
    cases x.namespaceUri.isSome <;> cases form <;> decide

theorem leading_and_serverIndexFlag (form : NodeId.Form) :
    (form.toByte ||| x.flags) &&& serverIndexFlag = 0 ↔ x.serverIndex = 0 := by
  rw [flags]
  by_cases h : x.serverIndex = 0 <;> simp only [h, ↓reduceIte, iff_true, iff_false] <;>
    cases x.namespaceUri.isSome <;> cases form <;> decide

/-! ### Optional members -/

/-- What is written for the URI, if there is one. -/
def encodeUri : Option String → Encoding
  | none => .empty
  | some uri => Codec.string.encode uri

/-- What is written for the server, unless it is the local one. -/
def encodeServer (server : UInt32) : Encoding :=
  if server = 0 then .empty else Codec.uint32.encode server

/-- Read the URI if the leading byte announces it. -/
def decodeUri (leading : UInt8) : Reader (Option String) :=
  if leading &&& namespaceUriFlag = 0 then pure none else some <$> Codec.string.decode

/-- Read the server if the leading byte announces it. -/
def decodeServer (leading : UInt8) : Reader UInt32 :=
  if leading &&& serverIndexFlag = 0 then pure 0 else Codec.uint32.decode

theorem encode_eq (x : ExpandedNodeId) : x.encode =
    x.nodeId.encodeFlagged x.flags ++ encodeUri x.namespaceUri ++ encodeServer x.serverIndex := by
  obtain ⟨nodeId, namespaceUri, serverIndex⟩ := x
  cases namespaceUri <;> rfl

theorem decode_eq : decode = do
    let (nodeId, leading) ← NodeId.decodeFlagged
    let namespaceUri ← decodeUri leading
    let serverIndex ← decodeServer leading
    return { nodeId, namespaceUri, serverIndex } := by
  unfold decode decodeUri decodeServer
  congr 1
  funext ⟨nodeId, leading⟩
  by_cases huri : leading &&& namespaceUriFlag = 0 <;>
    by_cases hserver : leading &&& serverIndexFlag = 0 <;>
    simp only [huri, hserver, ↓reduceIte]

theorem reads_uri {leading : UInt8} {uri : Option String} {bytes : List UInt8}
    (hleading : leading &&& namespaceUriFlag = 0 ↔ uri.isSome = false)
    (h : encodeUri uri = .ofBytes bytes) : (decodeUri leading).Reads d bytes uri := by
  rw [decodeUri]
  cases uri with
  | none =>
    obtain rfl : [] = bytes := Encoding.ofBytes_inj.1 h
    rw [if_pos (hleading.2 rfl)]
    exact Reader.reads_pure
  | some uri =>
    rw [if_neg fun hflag => nomatch hleading.1 hflag]
    exact (Codec.reads_string h).map

theorem reads_server {leading : UInt8} {server : UInt32} {bytes : List UInt8}
    (hleading : leading &&& serverIndexFlag = 0 ↔ server = 0)
    (h : encodeServer server = .ofBytes bytes) : (decodeServer leading).Reads d bytes server := by
  rw [encodeServer] at h
  rw [decodeServer]
  by_cases hlocal : server = 0
  · rw [if_pos hlocal] at h
    obtain rfl : [] = bytes := Encoding.ofBytes_inj.1 h
    rw [if_pos (hleading.2 hlocal), hlocal]
    exact Reader.reads_pure
  · rw [if_neg hlocal] at h
    rw [if_neg (mt hleading.1 hlocal)]
    exact Codec.lawful_uint32.reads h

theorem ensures_uri {leading : UInt8} :
    (decodeUri leading).Ensures d fun uri k => (encodeUri uri).Fits k := by
  refine Reader.Ensures.ite (fun _ => Reader.ensures_pure Encoding.fits_empty) fun _ => ?_
  exact (Codec.ensures_string d).map fun _ _ h => h

/-- A server that is announced but local is left out when it is written again. -/
theorem ensures_server {leading : UInt8} :
    (decodeServer leading).Ensures d fun server k => (encodeServer server).Fits k := by
  refine Reader.Ensures.ite (fun _ => Reader.ensures_pure Encoding.fits_empty) fun _ => ?_
  refine (Codec.lawful_uint32.fitsOnly d).imp fun server k h => ?_
  rw [encodeServer]
  split
  · exact Encoding.fits_empty.mono (Nat.zero_le k)
  · exact h

theorem lawful_codec : codec.Lawful fun _ => True := by
  have hdecode : codec.decode = _ := decode_eq
  refine .of_reads (fun x bytes d h => ?_) ?_ fun d => ?_ <;> rw [hdecode]
  · rw [show codec.encode x = _ from encode_eq x] at h
    obtain ⟨front, server, hfront, hserver, rfl⟩ := Encoding.append_eq_ofBytes_iff.1 h
    obtain ⟨id, uri, hid, huri, rfl⟩ := Encoding.append_eq_ofBytes_iff.1 hfront
    rw [List.append_assoc]
    refine (NodeId.reads_flagged flags_and_formMask hid).bind ?_
    refine (reads_uri (leading_and_namespaceUriFlag _) huri).bind ?_
    exact (reads_server (leading_and_serverIndexFlag _) hserver).map
  · refine NodeId.prefixCode_flagged.bind fun _ => ?_
    refine (Reader.prefixCode_pure.ite Codec.prefixCode_string.map).bind fun _ => ?_
    refine (Reader.prefixCode_pure.ite Codec.lawful_uint32.prefixCode).bind fun _ => ?_
    exact Reader.prefixCode_pure
  · refine NodeId.ensures_flagged.bind fun id i hid => ?_
    refine ensures_uri.bind fun uri j huri => ensures_server.bind fun server k hserver => ?_
    refine Reader.ensures_pure ?_
    rw [show codec.encode _ = _ from encode_eq _, ← Nat.add_assoc]
    exact ((hid _).append huri).append hserver

end ExpandedNodeId

end OpcWire
