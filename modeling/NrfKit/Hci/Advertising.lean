import NrfKit.Hci.Host
import NrfKit.Lib.Python

/- Advertising reports: `advertising_reports` and `advertising_name` of
   `tools/nrfkit_tools/hci.py`.

   A report event is its reports one after the other behind a count, and the decoder takes
   each byte of it for one of them or raises (`advertising_round_trip`). The name is looked
   for in the data of a report, which anyone nearby may have sent. A name that is not UTF-8
   raises what decoding raises, and nothing else does (`advertising_name_total`). -/
namespace NrfKit.Hci
open Bytes Python

def eventLeMeta : UInt8 := 0x3E
def leAdvertisingReport : UInt8 := 0x02

def contractError (text : String) : Raised := ⟨"HciContractError", text⟩

def hexByte (byte : UInt8) : List Char :=
  [Nat.digitChar (byte.toNat / 16), Nat.digitChar (byte.toNat % 16)]

def colonDigits : List UInt8 → List Char
  | [] => []
  | [byte] => hexByte byte
  | byte :: rest => hexByte byte ++ ':' :: colonDigits rest

/-- `bytes.hex(":")`. -/
def hexColon (bytes : List UInt8) : String := String.ofList (colonDigits bytes)

structure Report where
  eventType : UInt8
  addressType : UInt8
  address : String
  data : List UInt8
  rssi : Int
  deriving DecidableEq

/-- One pass of the loop: the report at `offset`, and where it ends. -/
def advertisingReport (parameters : List UInt8) (offset : Nat) : Except Raised (Report × Nat) := do
  raiseIf (offset + 9 > parameters.length) (contractError "truncated LE Advertising Report")
  let eventType ← nth parameters offset
  let addressType ← nth parameters (offset + 1)
  let address := hexColon (slice parameters (offset + 2) (offset + 8)).reverse
  let dataSize ← nth parameters (offset + 8)
  let offset := offset + 9
  raiseIf (offset + dataSize.toNat + 1 > parameters.length)
    (contractError "truncated LE Advertising Report data")
  let data := slice parameters offset (offset + dataSize.toNat)
  let rssi :=
    signedLittle (slice parameters (offset + dataSize.toNat) (offset + dataSize.toNat + 1))
  pure (⟨eventType, addressType, address, data, rssi⟩, offset + (dataSize.toNat + 1))

def reportLoop (parameters : List UInt8) (offset : Nat) : Nat → Except Raised (List Report × Nat)
  | 0 => .ok ([], offset)
  | n + 1 => do
    let (report, offset) ← advertisingReport parameters offset
    let (reports, offset) ← reportLoop parameters offset n
    pure (report :: reports, offset)

def advertisingReports (event : HciEvent) : Except Raised (List Report) :=
  if event.eventCode ≠ eventLeMeta ∨ event.parameters.length < 2 then .ok []
  else do
    let subevent ← nth event.parameters 0
    if subevent ≠ leAdvertisingReport then pure []
    else do
      let count ← nth event.parameters 1
      let (reports, offset) ← reportLoop event.parameters 2 count.toNat
      raiseIf (offset ≠ event.parameters.length)
        (contractError "LE Advertising Report has trailing bytes")
      pure reports

/-- `undecodable` is the text of a `UnicodeDecodeError`. -/
def advertisingNameFrom (undecodable : List UInt8 → String) (data : List UInt8)
    (offset : Nat) : Except Raised (Option String) :=
  if _h : offset < data.length then do
    let size ← nth data offset
    if size = 0 then pure none
    else
      let stop := offset + size.toNat + 1
      if stop > data.length ∨ size < 1 then .error (contractError "malformed advertising data")
      else do
        let adType ← nth data (offset + 1)
        if adType = 0x08 ∨ adType = 0x09 then
          match decodeUtf8 (slice data (offset + 2) stop) with
          | some name => pure (some name)
          | none => .error ⟨"UnicodeDecodeError", undecodable (slice data (offset + 2) stop)⟩
        else advertisingNameFrom undecodable data stop
  else .ok none
termination_by data.length - offset
decreasing_by omega

def advertisingName (undecodable : List UInt8 → String)
    (data : List UInt8) : Except Raised (Option String) :=
  advertisingNameFrom undecodable data 0

/-! ## Reports -/

/-- A report as it is sent. -/
structure Advertisement where
  eventType : UInt8
  addressType : UInt8
  address : List UInt8
  data : List UInt8
  rssi : Int
  address_length : address.length = 6
  data_length : data.length ≤ 0xFF
  rssi_range : -128 ≤ rssi ∧ rssi ≤ 127

namespace Advertisement

/-- The address is sent with its last byte first. -/
def encode (r : Advertisement) : List UInt8 :=
  r.eventType :: r.addressType :: (r.address.reverse ++ UInt8.ofNat r.data.length ::
    (r.data ++ [UInt8.ofNat (r.rssi % 256).toNat]))

/-- What the decoder makes of it. -/
def shown (r : Advertisement) : Report :=
  ⟨r.eventType, r.addressType, hexColon r.address, r.data, r.rssi⟩

end Advertisement

/-- The event of some reports. -/
def advertisingEvent (reports : List Advertisement) : HciEvent :=
  ⟨eventLeMeta, leAdvertisingReport :: UInt8.ofNat reports.length ::
    reports.flatMap Advertisement.encode⟩

theorem signedLittle_byte (byte : UInt8) :
    -128 ≤ signedLittle [byte] ∧ signedLittle [byte] ≤ 127 ∧
    UInt8.ofNat (signedLittle [byte] % 256).toNat = byte := by
  have hbyte := byte.toNat_lt
  have hvalue : littleEndian [byte] = byte.toNat := by simp
  unfold signedLittle
  rw [hvalue]
  simp only [List.length_singleton, Nat.pow_one, Int.pow_one]
  split
  · refine ⟨by omega, by omega, ?_⟩
    rw [show ((byte.toNat : Int) % 256).toNat = byte.toNat by omega, UInt8.ofNat_toNat]
  · refine ⟨by omega, by omega, ?_⟩
    rw [show (((byte.toNat : Int) - 256) % 256).toNat = byte.toNat by omega, UInt8.ofNat_toNat]

theorem signedLittle_encoded {rssi : Int} (h : -128 ≤ rssi ∧ rssi ≤ 127) :
    signedLittle [UInt8.ofNat (rssi % 256).toNat] = rssi := by
  have hvalue : littleEndian [UInt8.ofNat (rssi % 256).toNat] = (rssi % 256).toNat := by
    rw [littleEndian_cons, littleEndian_nil, UInt8.toNat_ofNat']
    omega
  unfold signedLittle
  rw [hvalue]
  simp only [List.length_singleton, Nat.pow_one, Int.pow_one]
  split <;> omega

/-- The report that stands at `offset`. -/
theorem advertisingReport_eq {parameters : List UInt8} {offset : Nat}
    {eventType addressType size rssi : UInt8} {wire data back : List UInt8} (htail :
      parameters.drop offset = eventType :: addressType :: (wire ++ size :: (data ++ rssi :: back)))
    (hwire : wire.length = 6) (hsize : size.toNat = data.length) :
    advertisingReport parameters offset =
      .ok (⟨eventType, addressType, hexColon wire.reverse, data, signedLittle [rssi]⟩,
        offset + (10 + data.length)) := by
  have hlength : parameters.length = offset + (10 + data.length + back.length) := by
    have h := congrArg List.length htail
    simp only [List.length_drop, List.length_cons, List.length_append, hwire] at h
    omega
  have hfirst : nth parameters offset = .ok eventType := nth_front htail
  have hsecond : nth parameters (offset + 1) = .ok addressType :=
    @nth_behind _ _ [eventType] _ _ _ _ htail rfl
  have haddress : slice parameters (offset + 2) (offset + 8) = wire := by
    have h := slice_append [eventType, addressType] wire (size :: (data ++ rssi :: back))
    rw [hwire] at h
    rw [slice_drop, htail]
    exact h
  have hdataSize : nth parameters (offset + 8) = .ok size :=
    @nth_behind _ _ (eventType :: addressType :: wire) _ _ _ _ htail (by simp [hwire])
  have hplace : parameters.drop (offset + 9) = data ++ rssi :: back := by
    rw [← List.drop_drop, htail]
    simp [hwire, List.drop_append]
  have hdata : slice parameters (offset + 9) (offset + 9 + data.length) = data := by
    have h := slice_drop parameters (offset + 9) 0 data.length
    rw [Nat.add_zero, hplace] at h
    rw [h, slice, List.take_left, List.drop_zero]
  have hrssi : slice parameters (offset + 9 + data.length)
      (offset + 9 + data.length + 1) = [rssi] := by
    have h := slice_drop parameters (offset + 9) data.length (data.length + 1)
    rw [hplace] at h
    exact h.trans (slice_append data [rssi] back)
  rw [advertisingReport, raiseIf, if_neg (by omega), hfirst, hsecond, haddress, hdataSize]
  simp only [Bind.bind, Except.bind]
  rw [raiseIf, if_neg (by omega), hsize, hdata, hrssi]
  rw [show offset + 9 + (data.length + 1) = offset + (10 + data.length) by omega]
  rfl

theorem Advertisement.encode_length (r : Advertisement) : r.encode.length = 10 + r.data.length := by
  simp [encode, r.address_length]
  omega

/-- A report is read where it is encoded. -/
theorem advertisingReport_encode (r : Advertisement) {parameters back : List UInt8} {offset : Nat}
    (h : parameters.drop offset = r.encode ++ back) :
    advertisingReport parameters offset = .ok (r.shown, offset + r.encode.length) := by
  have hsize : (UInt8.ofNat r.data.length).toNat = r.data.length := by
    have := r.data_length
    rw [UInt8.toNat_ofNat']
    omega
  have htail : parameters.drop offset = r.eventType :: r.addressType ::
      (r.address.reverse ++ UInt8.ofNat r.data.length ::
      (r.data ++ UInt8.ofNat (r.rssi % 256).toNat :: back)) := by
    rw [h, Advertisement.encode]
    simp
  rw [advertisingReport_eq htail (by rw [List.length_reverse, r.address_length]) hsize,
    List.reverse_reverse, signedLittle_encoded r.rssi_range, r.encode_length]
  rfl

theorem two_of_length {α : Type} : ∀ {l : List α}, 2 ≤ l.length → ∃ a b more, l = a :: b :: more
  | a :: b :: more, _ => ⟨a, b, more, rfl⟩
  | [], h | [_], h => absurd h (by simp)

/-- What is read at `offset` is the encoding of a report, or the parameters end within one. -/
theorem advertisingReport_cases (parameters : List UInt8) (offset : Nat) :
    (∃ text, advertisingReport parameters offset = .error (contractError text)) ∨
      ∃ r : Advertisement, ∃ back, parameters.drop offset = r.encode ++ back ∧
        advertisingReport parameters offset = .ok (r.shown, offset + r.encode.length) := by
  -- the two checks of the length: nine bytes, then the data and the RSSI
  by_cases hshort : offset + 9 > parameters.length
  · left
    rw [advertisingReport, raiseIf, if_pos hshort]
    exact ⟨_, rfl⟩
  have hlength : (parameters.drop offset).length = parameters.length - offset := List.length_drop
  obtain ⟨eventType, addressType, more, hmore⟩ :=
    two_of_length (l := parameters.drop offset) (by omega)
  rw [hmore, List.length_cons, List.length_cons] at hlength
  obtain ⟨size, rest, hrest⟩ : ∃ size rest, more.drop 6 = size :: rest := by
    cases hdrop : more.drop 6 with
    | nil =>
      have := List.drop_eq_nil_iff.mp hdrop
      omega
    | cons size rest => exact ⟨size, rest, rfl⟩
  have hwire : (more.take 6).length = 6 := by
    rw [List.length_take]
    omega
  have hparts : more = more.take 6 ++ size :: rest := by rw [← hrest, List.take_append_drop]
  have hrestLength : rest.length + 7 = more.length := by
    have := congrArg List.length hrest
    rw [List.length_drop, List.length_cons] at this
    omega
  have hsmall := size.toNat_lt
  by_cases hcut : rest.length < size.toNat + 1
  · left
    have hfirst : nth parameters offset = .ok eventType := nth_front hmore
    have hsecond : nth parameters (offset + 1) = .ok addressType :=
      @nth_behind _ _ [eventType] _ _ _ _ hmore rfl
    have hdataSize : nth parameters (offset + 8) = .ok size := by
      rw [hparts] at hmore
      exact @nth_behind _ _ (eventType :: addressType :: more.take 6) _ _ _ _ hmore
        (by simp [hwire])
    rw [advertisingReport, raiseIf, if_neg hshort, hfirst, hsecond, hdataSize]
    simp only [Bind.bind, Except.bind]
    rw [raiseIf, if_pos (by omega)]
    exact ⟨_, rfl⟩
  · right
    obtain ⟨rssi, back, hback⟩ : ∃ rssi back, rest.drop size.toNat = rssi :: back := by
      cases hdrop : rest.drop size.toNat with
      | nil =>
        have := List.drop_eq_nil_iff.mp hdrop
        omega
      | cons rssi back => exact ⟨rssi, back, rfl⟩
    have hdata : (rest.take size.toNat).length = size.toNat := by
      rw [List.length_take]
      omega
    obtain ⟨hlow, hhigh, hbyte⟩ := signedLittle_byte rssi
    -- any RSSI byte is that of a number in range, so whatever is read was encodable
    let r : Advertisement := {
      eventType, addressType
      address := (more.take 6).reverse
      data := rest.take size.toNat
      rssi := signedLittle [rssi]
      address_length := by rw [List.length_reverse, hwire]
      data_length := by omega
      rssi_range := ⟨hlow, hhigh⟩ }
    have hencode : parameters.drop offset = r.encode ++ back := by
      have hsize : UInt8.ofNat (rest.take size.toNat).length = size := by
        rw [hdata, UInt8.ofNat_toNat]
      have hend : rest = rest.take size.toNat ++ rssi :: back := by
        rw [← hback, List.take_append_drop]
      rw [hmore, Advertisement.encode, List.reverse_reverse, hsize, hbyte]
      simp only [List.cons_append, List.append_assoc, List.nil_append]
      rw [← hend, ← hparts]
    exact ⟨r, back, hencode, advertisingReport_encode r hencode⟩

theorem reportLoop_encode (reports : List Advertisement) {parameters back : List UInt8}
    {offset : Nat} (h : parameters.drop offset = reports.flatMap Advertisement.encode ++ back) :
    reportLoop parameters offset reports.length =
      .ok (reports.map Advertisement.shown,
        offset + (reports.flatMap Advertisement.encode).length) := by
  induction reports generalizing offset with
  | nil => rfl
  | cons r rest ih =>
    rw [List.flatMap_cons, List.append_assoc] at h
    have hnext : parameters.drop (offset + r.encode.length) = rest.flatMap Advertisement.encode ++
        back := by
      rw [← List.drop_drop, h, List.drop_left]
    rw [List.length_cons, reportLoop, advertisingReport_encode r h]
    simp only [Bind.bind, Except.bind]
    rw [ih hnext, List.flatMap_cons, List.length_append, Nat.add_assoc]
    rfl

/-- The loop reads encodings one after the other, or the parameters end within one. -/
theorem reportLoop_cases (parameters : List UInt8) (n offset : Nat) :
    (∃ text, reportLoop parameters offset n = .error (contractError text)) ∨
      ∃ (reports : List Advertisement) (back : List UInt8), reports.length = n ∧
        parameters.drop offset = reports.flatMap Advertisement.encode ++ back ∧
        reportLoop parameters offset n =
          .ok (reports.map Advertisement.shown,
            offset + (reports.flatMap Advertisement.encode).length) := by
  induction n generalizing offset with
  | zero => exact Or.inr ⟨[], parameters.drop offset, rfl, rfl, rfl⟩
  | succ n ih =>
    rw [reportLoop]
    rcases advertisingReport_cases parameters offset with ⟨text, herror⟩ | ⟨r, back, htail, hread⟩
    · rw [herror]
      exact Or.inl ⟨text, rfl⟩
    rcases ih (offset + r.encode.length) with ⟨text, herror⟩ | ⟨reports, back', rfl, htail', _⟩
    · rw [hread]
      simp only [Bind.bind, Except.bind]
      rw [herror]
      exact Or.inl ⟨text, rfl⟩
    · right
      have hdrop : parameters.drop (offset + r.encode.length) = back := by
        rw [← List.drop_drop, htail, List.drop_left]
      have hall : parameters.drop offset = (r :: reports).flatMap Advertisement.encode ++
          back' := by
        rw [htail, ← hdrop, htail', List.flatMap_cons, List.append_assoc]
      refine ⟨r :: reports, back', rfl, hall, ?_⟩
      have hloop := reportLoop_encode (r :: reports) hall
      rwa [List.length_cons, reportLoop] at hloop

/-! The text of an address is that of no other. -/

theorem hexByte_injective {a b : UInt8} (h : hexByte a = hexByte b) : a = b := by
  have hdigit : ∀ m < 16, ∀ n < 16, Nat.digitChar m = Nat.digitChar n → m = n := by decide
  have ha := a.toNat_lt
  have hb := b.toNat_lt
  simp only [hexByte, List.cons.injEq, and_true] at h
  have hhigh := hdigit _ (by omega) _ (by omega) h.1
  have hlow := hdigit _ (by omega) _ (by omega) h.2
  apply UInt8.toNat_inj.mp
  omega

theorem colonDigits_injective {a b : List UInt8} (hlength : a.length = b.length)
    (h : colonDigits a = colonDigits b) : a = b := by
  induction a generalizing b with
  | nil => exact (List.length_eq_zero_iff.mp hlength.symm).symm
  | cons first a ih =>
    cases b with
    | nil => cases hlength
    | cons second b =>
      rw [List.length_cons, List.length_cons, Nat.succ_inj] at hlength
      cases a with
      | nil =>
        obtain rfl := List.length_eq_zero_iff.mp hlength.symm
        rw [hexByte_injective h]
      | cons a₁ a =>
        cases b with
        | nil => cases hlength
        | cons b₁ b =>
          have hparts := List.append_inj h rfl
          rw [hexByte_injective hparts.1, ih hlength (List.cons.inj hparts.2).2]

theorem Advertisement.shown_injective {r q : Advertisement} (h : r.shown = q.shown) : r = q := by
  have haddress : r.address = q.address := by
    apply colonDigits_injective (by rw [r.address_length, q.address_length])
    exact String.ofList_inj.mp (congrArg Report.address h)
  cases r
  cases q
  simp only [shown, Report.mk.injEq] at h
  simp only [Advertisement.mk.injEq]
  exact ⟨h.1, h.2.1, haddress, h.2.2.2.1, h.2.2.2.2⟩

/-- The reports that are encoded in an event are read back, and no other list has the same
look; and what is read of any report event is as many reports as it counts, whose encodings
are all it has behind the count. -/
theorem advertising_round_trip :
    (∀ reports : List Advertisement, (advertisingEvent reports).parameters.length ≤ 0xFF →
      advertisingReports (advertisingEvent reports) = .ok (reports.map Advertisement.shown)) ∧
    Function.Injective (List.map Advertisement.shown) ∧
    (∀ (count : UInt8) (rest : List UInt8),
      match advertisingReports ⟨eventLeMeta, leAdvertisingReport :: count :: rest⟩ with
      | .error e => e.name = "HciContractError"
      | .ok found => ∃ reports : List Advertisement, found = reports.map Advertisement.shown ∧
          found.length = count.toNat ∧ rest = reports.flatMap Advertisement.encode) := by
  refine ⟨fun reports hfits => ?_, fun _ _ h => ?_, fun count rest => ?_⟩
  · have hcount : (UInt8.ofNat reports.length).toNat = reports.length := by
      -- a report has more than one byte, so the count fits where the parameters do
      have hlong : reports.length ≤ (reports.flatMap Advertisement.encode).length := by
        clear hfits
        induction reports with
        | nil => exact Nat.le_refl _
        | cons r rest ih =>
          rw [List.flatMap_cons, List.length_append, List.length_cons, r.encode_length]
          omega
      simp only [advertisingEvent, List.length_cons] at hfits
      rw [UInt8.toNat_ofNat']
      omega
    have hloop := @reportLoop_encode reports (advertisingEvent reports).parameters [] 2
      (by rw [List.append_nil]; rfl)
    rw [advertisingReports, if_neg (by simp [advertisingEvent])]
    show (reportLoop (advertisingEvent reports).parameters 2
      (UInt8.ofNat reports.length).toNat >>= _) = _
    rw [hcount, hloop]
    simp only [Bind.bind, Except.bind]
    rw [raiseIf, if_neg]
    · rfl
    · simp only [advertisingEvent, List.length_cons]
      omega
  · exact (List.map_inj_right fun _ _ => Advertisement.shown_injective).mp h
  · have hread : advertisingReports ⟨eventLeMeta, leAdvertisingReport :: count :: rest⟩ =
        (reportLoop (leAdvertisingReport :: count :: rest) 2 count.toNat >>= fun result => do
          raiseIf (result.2 ≠ (leAdvertisingReport :: count :: rest).length)
            (contractError "LE Advertising Report has trailing bytes")
          pure result.1) := by
      rw [advertisingReports, if_neg (by simp)]
      rfl
    rw [hread]
    rcases reportLoop_cases (leAdvertisingReport :: count :: rest) count.toNat 2
      with ⟨text, herror⟩ | ⟨reports, back, hlength, htail, hloop⟩
    · rw [herror]
      rfl
    · rw [hloop]
      simp only [Bind.bind, Except.bind]
      rw [List.drop_succ_cons, List.drop_succ_cons, List.drop_zero] at htail
      by_cases htrailing : 2 + (reports.flatMap Advertisement.encode).length ≠
        (leAdvertisingReport :: count :: rest).length
      · rw [raiseIf, if_pos htrailing]
        rfl
      · rw [raiseIf, if_neg htrailing]
        refine ⟨reports, rfl, by rw [List.length_map, hlength], ?_⟩
        have hback : back = [] := by
          have := congrArg List.length htail
          rw [List.length_append] at this
          simp only [List.length_cons] at htrailing
          exact List.length_eq_zero_iff.mp (by omega)
        rw [htail, hback, List.append_nil]

/-- The report of a peer that is called `nrfkit-s1`. -/
def peerAdvertisement : Advertisement where
  eventType := 0x00
  addressType := 0x01
  address := [0x11, 0x22, 0x33, 0x44, 0x55, 0x66]
  data := [0x02, 0x01, 0x06, 0x0a, 0x09, 0x6e, 0x72, 0x66, 0x6b, 0x69, 0x74, 0x2d, 0x73, 0x31]
  rssi := -42
  address_length := rfl
  data_length := by decide
  rssi_range := by decide

theorem advertising_round_trip_peer :
    advertisingReports (advertisingEvent [peerAdvertisement]) =
      .ok [⟨0x00, 0x01, "11:22:33:44:55:66", peerAdvertisement.data, -42⟩] :=
  advertising_round_trip.1 [peerAdvertisement] (by decide)

/-! ## Names -/

/-- An AD structure: its length byte counts the type and the payload. -/
structure AdStructure where
  type : UInt8
  payload : List UInt8
  fits : payload.length ≤ 0xFE

namespace AdStructure

def bytes (s : AdStructure) : List UInt8 :=
  UInt8.ofNat (s.payload.length + 1) :: s.type :: s.payload

/-- A shortened or a complete local name. -/
def IsName (s : AdStructure) : Prop := s.type = 0x08 ∨ s.type = 0x09

end AdStructure

/-- Behind some structures that are no names the data goes on with `tail`. -/
structure Reaches (data tail : List UInt8) (others : List AdStructure) : Prop where
  bytes : data = others.flatMap AdStructure.bytes ++ tail
  unnamed : ∀ s ∈ others, ¬ s.IsName

/-- The first structure that is a name; no zero length byte stands before it. -/
def FirstName (data : List UInt8) (name : AdStructure) : Prop :=
  name.IsName ∧ ∃ others back, Reaches data (name.bytes ++ back) others

/-- A structure that the data does not hold whole, before any name. -/
def Overrun (data : List UInt8) : Prop :=
  ∃ others size rest, Reaches data (size :: rest) others ∧ size ≠ 0 ∧ rest.length < size.toNat

/-- The data, or a zero length byte, ends the structures before any name. -/
def Nameless (data : List UInt8) : Prop :=
  ∃ others tail, Reaches data tail others ∧ (tail = [] ∨ tail.head? = some 0)

section
variable (undecodable : List UInt8 → String)

/-- What the payload of a name is answered with. -/
def nameResult (payload : List UInt8) : Except Raised (Option String) :=
  match decodeUtf8 payload with
  | some name => .ok (some name)
  | none => .error ⟨"UnicodeDecodeError", undecodable payload⟩

/-- The structure at `offset` is a name, or the search goes on behind it. -/
theorem advertisingNameFrom_structure {data back : List UInt8} {offset : Nat} {s : AdStructure}
    (h : data.drop offset = s.bytes ++ back) :
    (s.IsName → advertisingNameFrom undecodable data offset = nameResult undecodable s.payload) ∧
      (¬ s.IsName → advertisingNameFrom undecodable data offset =
        advertisingNameFrom undecodable data (offset + s.bytes.length)) := by
  have hfits := s.fits
  have hsize : (UInt8.ofNat (s.payload.length + 1)).toNat = s.payload.length + 1 := by
    rw [UInt8.toNat_ofNat']
    omega
  have hbytes : s.bytes.length = s.payload.length + 2 := rfl
  have hlength : data.length = offset + (s.payload.length + 2 + back.length) := by
    have := congrArg List.length h
    rw [List.length_drop, List.length_append, hbytes] at this
    omega
  have hfirst : nth data offset = .ok (UInt8.ofNat (s.payload.length + 1)) := nth_front h
  have hsecond : nth data (offset + 1) = .ok s.type :=
    @nth_behind _ _ [UInt8.ofNat (s.payload.length + 1)] _ _ _ _ h rfl
  have hnonzero : UInt8.ofNat (s.payload.length + 1) ≠ 0 := by
    intro hzero
    rw [hzero] at hsize
    cases hsize
  have hpositive : ¬ UInt8.ofNat (s.payload.length + 1) < 1 := by
    rw [UInt8.lt_iff_toNat_lt, hsize]
    show ¬ s.payload.length + 1 < 1
    omega
  have hpayload : slice data (offset + 2) (offset + (s.payload.length + 1) + 1) = s.payload := by
    have hslice := slice_append [UInt8.ofNat (s.payload.length + 1), s.type] s.payload back
    rw [show offset + (s.payload.length + 1) + 1 = offset + (2 + s.payload.length) by
      omega, slice_drop, h]
    exact hslice
  have hstep : advertisingNameFrom undecodable data offset =
      if s.type = 0x08 ∨ s.type = 0x09 then nameResult undecodable s.payload
      else advertisingNameFrom undecodable data (offset + s.bytes.length) := by
    rw [advertisingNameFrom, dif_pos (by omega), hfirst]
    simp only [Bind.bind, Except.bind]
    rw [if_neg hnonzero, hsize,
      if_neg (by rintro (hlong | hshort); omega; exact hpositive hshort), hsecond]
    dsimp only
    rw [hpayload, hbytes, nameResult]
    rfl
  constructor
  · intro hname
    exact hstep.trans (if_pos hname)
  · intro hother
    exact hstep.trans (if_neg hother)

theorem advertisingNameFrom_reaches {data tail : List UInt8} {others : List AdStructure}
    {offset : Nat} (h : Reaches (data.drop offset) tail others) :
    ∃ next, data.drop next = tail ∧
      advertisingNameFrom undecodable data offset = advertisingNameFrom undecodable data next := by
  induction others generalizing offset with
  | nil => exact ⟨offset, h.bytes, rfl⟩
  | cons s others ih =>
    have hbytes := h.bytes
    rw [List.flatMap_cons, List.append_assoc] at hbytes
    have hskip :=
      (advertisingNameFrom_structure undecodable hbytes).2 (h.unnamed s (List.mem_cons_self ..))
    have hrest : Reaches (data.drop (offset + s.bytes.length)) tail others := by
      refine ⟨?_, fun s hs => h.unnamed s (List.mem_cons_of_mem _ hs)⟩
      rw [← List.drop_drop, hbytes, List.drop_left]
    obtain ⟨next, htail, hnext⟩ := ih hrest
    exact ⟨next, htail, hskip.trans hnext⟩

section
variable {data : List UInt8}

theorem advertisingName_first {name : AdStructure} (h : FirstName data name) :
    advertisingName undecodable data = nameResult undecodable name.payload := by
  obtain ⟨hname, others, back, hreaches⟩ := h
  obtain ⟨next, htail, hnext⟩ := @advertisingNameFrom_reaches undecodable data _ others 0 hreaches
  rw [advertisingName, hnext]
  exact (advertisingNameFrom_structure undecodable htail).1 hname

theorem advertisingName_overrun (h : Overrun data) :
    advertisingName undecodable data = .error (contractError "malformed advertising data") := by
  obtain ⟨others, size, rest, hreaches, hsize, hshort⟩ := h
  obtain ⟨next, htail, hnext⟩ := @advertisingNameFrom_reaches undecodable data _ others 0 hreaches
  have hlength := congrArg List.length htail
  rw [List.length_drop, List.length_cons] at hlength
  have hfirst : nth data next = .ok size := nth_front htail
  rw [advertisingName, hnext, advertisingNameFrom, dif_pos (by omega), hfirst]
  simp only [Bind.bind, Except.bind]
  rw [if_neg hsize, if_pos (Or.inl (by omega))]

theorem advertisingName_nameless (h : Nameless data) :
    advertisingName undecodable data = .ok none := by
  obtain ⟨others, tail, hreaches, hend⟩ := h
  obtain ⟨next, htail, hnext⟩ := @advertisingNameFrom_reaches undecodable data _ others 0 hreaches
  have hlength := congrArg List.length htail
  rw [List.length_drop] at hlength
  rw [advertisingName, hnext]
  cases tail with
  | nil =>
    rw [List.length_nil] at hlength
    rw [advertisingNameFrom, dif_neg (by omega)]
  | cons size rest =>
    have hzero : size = 0 := by simpa using hend
    subst hzero
    rw [List.length_cons] at hlength
    have hfirst : nth data next = .ok 0 := nth_front htail
    rw [advertisingNameFrom, dif_pos (by omega), hfirst]
    rfl

end

end

/-- A structure stands at the front, or the data ends there. -/
theorem advertising_front (size : UInt8) (rest : List UInt8) (hzero : size ≠ 0)
    (hlong : size.toNat ≤ rest.length) :
    ∃ (s : AdStructure) (back : List UInt8), size :: rest = s.bytes ++ back := by
  have hpositive : 0 < size.toNat := by
    rcases Nat.eq_zero_or_pos size.toNat with h | h
    · exact absurd (UInt8.toNat_inj.mp h) hzero
    · exact h
  have hsmall := size.toNat_lt
  cases rest with
  | nil =>
    rw [List.length_nil] at hlong
    omega
  | cons type more =>
    rw [List.length_cons] at hlong
    have htake : (more.take (size.toNat - 1)).length = size.toNat - 1 := by
      rw [List.length_take]
      omega
    have hsize : UInt8.ofNat ((more.take (size.toNat - 1)).length + 1) = size := by
      rw [htake, Nat.sub_add_cancel hpositive, UInt8.ofNat_toNat]
    refine ⟨⟨type, more.take (size.toNat - 1), by omega⟩, more.drop (size.toNat - 1), ?_⟩
    rw [AdStructure.bytes, hsize, List.cons_append, List.cons_append, List.take_append_drop]

/-- Data is of one of three kinds. -/
theorem advertising_kinds (data : List UInt8) :
    (∃ name, FirstName data name) ∨ Overrun data ∨ Nameless data := by
  induction hlength : data.length using Nat.strongRecOn generalizing data with
  | ind length ih =>
    cases data with
    | nil => exact Or.inr (Or.inr ⟨[], [], ⟨rfl, nofun⟩, Or.inl rfl⟩)
    | cons size rest =>
      by_cases hzero : size = 0
      · subst hzero
        exact Or.inr (Or.inr ⟨[], 0 :: rest, ⟨rfl, nofun⟩, Or.inr rfl⟩)
      by_cases hshort : rest.length < size.toNat
      · exact Or.inr (Or.inl ⟨[], size, rest, ⟨rfl, nofun⟩, hzero, hshort⟩)
      obtain ⟨s, back, hbytes⟩ := advertising_front size rest hzero (Nat.not_lt.mp hshort)
      by_cases hname : s.IsName
      · exact Or.inl ⟨s, hname, [], back, hbytes, nofun⟩
      -- the search goes on behind the structure
      have hnext : ∀ {tail : List UInt8} {others : List AdStructure}, Reaches back tail others →
          Reaches (size :: rest) tail (s :: others) := by
        intro tail others h
        refine ⟨?_, List.forall_mem_cons.mpr ⟨hname, h.unnamed⟩⟩
        rw [hbytes, List.flatMap_cons, List.append_assoc, ← h.bytes]
      have hless : back.length < length := by
        rw [← hlength, hbytes, List.length_append]
        exact Nat.lt_add_of_pos_left (Nat.succ_pos _)
      rcases ih back.length hless back rfl with ⟨name, hfirst, others, back', h⟩ | ⟨others, size',
        rest', h, hover⟩ | ⟨others, tail, h, hend⟩
      · exact Or.inl ⟨name, hfirst, s :: others, back', hnext h⟩
      · exact Or.inr (Or.inl ⟨s :: others, size', rest', hnext h, hover⟩)
      · exact Or.inr (Or.inr ⟨s :: others, tail, hnext h, hend⟩)

/-- The search answers with the text of the first name, with nothing where there is none, and
announces what is malformed. -/
def Parsed (data : List UInt8) : Except Raised (Option String) → Prop
  | .ok (some text) => ∃ name, FirstName data name ∧ decodeUtf8 name.payload = some text
  | .ok none => (∀ name, ¬ FirstName data name) ∧ ¬ Overrun data
  | .error e => e.name = "HciContractError" ∧
    (Overrun data ∨ ∃ name, FirstName data name ∧ decodeUtf8 name.payload = none)

/-- The name search is total but for names that are not UTF-8. -/
theorem advertising_name_total (undecodable : List UInt8 → String) (data : List UInt8) :
    Parsed data (advertisingName undecodable data) ↔ ∀ name, FirstName data name →
      (decodeUtf8 name.payload).isSome := by
  have hfirst : ∀ name, FirstName data name →
      advertisingName undecodable data = nameResult undecodable name.payload :=
    fun name => advertisingName_first undecodable
  have hnameResult : ∀ payload, nameResult undecodable payload ≠ .ok none ∧
      nameResult undecodable payload ≠ .error (contractError "malformed advertising data") := by
    intro payload
    unfold nameResult
    split <;> simp [contractError]
  -- There is a name, or a structure that does not fit, or neither.
  rcases advertising_kinds data with ⟨name, hname⟩ | hover | hnone
  · rw [hfirst name hname]
    have hsame : ∀ other, FirstName data other →
        nameResult undecodable other.payload = nameResult undecodable name.payload :=
      fun other hother => (hfirst other hother).symm.trans (hfirst name hname)
    cases hdecoded : decodeUtf8 name.payload with
    | some text =>
      have hresult : nameResult undecodable name.payload = .ok (some text) := by
        rw [nameResult, hdecoded]
      rw [hresult]
      refine ⟨fun _ other hother => ?_, fun _ => ⟨name, hname, hdecoded⟩⟩
      have hother' := hsame other hother
      rw [hresult, nameResult] at hother'
      split at hother'
      · rename_i h
        rw [h]
        rfl
      · cases hother'
    | none =>
      have hresult : nameResult undecodable name.payload = .error ⟨"UnicodeDecodeError",
          undecodable name.payload⟩ := by
        rw [nameResult, hdecoded]
      rw [hresult]
      constructor
      -- What decoding raises is not the error of the contract.
      · rintro ⟨hcontract, _⟩
        exact absurd (show "UnicodeDecodeError" = "HciContractError" from hcontract) (by decide)
      · intro hall
        have hsome := hall name hname
        rw [hdecoded] at hsome
        cases hsome
  · have hresult := advertisingName_overrun undecodable hover
    rw [hresult]
    refine ⟨fun _ name hname => ?_, fun _ => ⟨rfl, Or.inl hover⟩⟩
    exact absurd ((hfirst name hname).symm.trans hresult) (hnameResult name.payload).2
  · have hresult := advertisingName_nameless undecodable hnone
    rw [hresult]
    refine ⟨fun _ name hname => ?_, fun _ => ⟨fun name hname => ?_, fun hover => ?_⟩⟩
    · exact absurd ((hfirst name hname).symm.trans hresult) (hnameResult name.payload).1
    · exact absurd ((hfirst name hname).symm.trans hresult) (hnameResult name.payload).1
    · exact nomatch (advertisingName_overrun undecodable hover).symm.trans hresult

/-- The text of the error for a byte that begins no character. -/
def invalidStart (_ : List UInt8) : String :=
  "'utf-8' codec can't decode byte 0xff in position 0: invalid start byte"

/-- A complete local name of one byte that no UTF-8 text has. -/
theorem advertising_name_undecodable :
    ∃ e, advertisingName invalidStart [0x02, 0x09, 0xFF] = .error e ∧
      e.name ≠ "HciContractError" := by
  have hname : FirstName [0x02, 0x09, 0xFF] ⟨0x09, [0xFF], by decide⟩ :=
    ⟨Or.inr rfl, [], [], rfl, nofun⟩
  have hnone : decodeUtf8 [0xFF] = none := by decide +kernel
  rw [advertisingName_first invalidStart hname, nameResult, hnone]
  exact ⟨_, rfl, by simp⟩

end NrfKit.Hci
