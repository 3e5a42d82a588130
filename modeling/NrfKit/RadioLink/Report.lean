import NrfKit.RadioLink.OneWay
import NrfKit.RetryLink.Report

/- The reports of the one-way links and what the host takes from them: the line the receiver of
   `examples/m5-radio-link/main.c` puts together in 96 bytes, the line of the sequence-gated
   receiver of `tests/hardware/m5-radio-peer/src/main.c`, and the two checks of
   `tools/nrfkit_tools/cli.py` on them.

   The array has room for these numbers only: five counters of ten digits would not fit. The
   bounds of the loop are what keeps the line in it (`linkReport_eq`). -/
namespace NrfKit.RadioLink
open Fields Python NrfKit.Tools.Cli
open RetryLink (Counts putWithin putWithin_all reversedLoop reversedLoop_digits unsigned printedAll
  Heard HeardAll shown_line
  proper_printed stops_newline lookup_printed lookup_of mem_printed word_toNat)

/-! ## The lines -/

def outputSize : Nat := 96

def appendText (output : List Char) (text : String) : Option (List Char) :=
  text.toList.foldlM (putWithin outputSize) output

def appendU32 (output : List Char) (value : UInt32) : Option (List Char) := do
  let reversed ← reversedLoop 10 value []
  reversed.reverse.foldlM (putWithin outputSize) output

def appendCounter (output : List Char) (label : String) (value : UInt32) : Option (List Char) := do
  let output ← appendText output label
  appendU32 output value

/-- `pass_prefix` or `fail_prefix`, with `NRFKIT_M7_PHY_4MBIT` or without. -/
def receivedLabel (phy4 passed : Bool) : String :=
  match phy4, passed with
  | true, true => "NRFKIT_M7_RX PASS received="
  | true, false => "NRFKIT_M7_RX FAIL received="
  | false, true => "NRFKIT_M5_RX PASS received="
  | false, false => "NRFKIT_M5_RX FAIL received="

/-- The line the receiver of the example writes. -/
def linkReport (phy4 : Bool) (r : Receiver) (cycleSpan : UInt32) : Option (List Char) := do
  let output ← appendText [] (receivedLabel phy4 r.passed)
  let output ← appendU32 output (UInt32.ofNat r.received)
  let output ← appendCounter output " lost=" (UInt32.ofNat r.lost)
  let output ← appendCounter output " crc=" (UInt32.ofNat r.crcErrors)
  let output ← appendCounter output " invalid=" (UInt32.ofNat r.invalid)
  let output ← appendCounter output " cycles=" cycleSpan
  appendText output "\r\n"

/-- The line the sequence-gated receiver prints. -/
def coexReport (r : Receiver) : List Char :=
  if r.coexPassed then
    ("NRFKIT_M7_PEER_COEX PASS received=" ++ unsigned r.received ++ " lost=" ++
      unsigned r.lost ++ " last=" ++ unsigned (r.expected - 1) ++ " invalid=0\n").toList
  else
    ("NRFKIT_M7_PEER_COEX FAIL rx=" ++ unsigned r.received ++ " last=" ++
      unsigned (if r.expected = 0 then 0 else r.expected - 1) ++ " invalid=" ++
      unsigned r.invalid ++ "\n").toList

/-! ## The host -/

/-- A counter of a console that has to be there and to be at least `least`. -/
def requireCounter (u : Unicode) (name : String) (least : Nat) (message : String)
    (transcript : List Char) : Except Raised Nat :=
  match search (field u name.toList) transcript with
  | none => .error (toolError message)
  | some digits => if u.int digits < least then .error (toolError message) else .ok (u.int digits)

/-- The stage `crc-rejection` of `command_m5_radio_dual`. -/
def crcRejection (u : Unicode) (milestone : String) (transcript : List Char) : Except Raised Nat :=
  requireCounter u "crc" 1
    (milestone ++ " receiver did not report a rejected CRC packet") transcript

/-- What `command_m7_coexistence` takes from the peer's console: `last_sequence`. -/
def lastReceived (u : Unicode) (transcript : List Char) : Except Raised Nat :=
  requireCounter u "last" 15 "peer did not receive the active-connection burst" transcript

/-! ## The lines are written -/

section
variable {r : Receiver} {cycleSpan : UInt32} {phy4 : Bool}

def linkHead (phy4 passed : Bool) : List Char :=
  match phy4, passed with
  | true, true => "NRFKIT_M7_RX PASS".toList
  | true, false => "NRFKIT_M7_RX FAIL".toList
  | false, true => "NRFKIT_M5_RX PASS".toList
  | false, false => "NRFKIT_M5_RX FAIL".toList

def linkCounts (r : Receiver) (cycleSpan : UInt32) : Counts :=
  [("received", (UInt32.ofNat r.received).toNat), ("lost", (UInt32.ofNat r.lost).toNat),
    ("crc", (UInt32.ofNat r.crcErrors).toNat),
    ("invalid", (UInt32.ofNat r.invalid).toNat), ("cycles", cycleSpan.toNat)]

theorem receivedLabel_eq (phy4 passed : Bool) :
    (receivedLabel phy4 passed).toList = linkHead phy4 passed ++ ' ' :: "received=".toList := by
  cases phy4 <;> cases passed <;> rfl

theorem linkHead_plain (phy4 passed : Bool) :
    (linkHead phy4 passed).length = 17 ∧ '\r' ∉ linkHead phy4 passed ∧
    '=' ∉ linkHead phy4 passed := by
  cases phy4 <;> cases passed <;> decide

theorem appendU32_eq (output : List Char) (value : UInt32) :
    appendU32 output value = (Nat.toDigits 10 value.toNat).foldlM
      (putWithin outputSize) output := by
  have hroom : value.toNat < 10 ^ 10 := Nat.lt_trans value.toNat_lt (by decide)
  rw [appendU32, reversedLoop_digits hroom (by decide)]
  simp

/-- The digits of a bounded number. -/
theorem digits_le {n digits : Nat} (hpos : 0 < digits) (h : n < 10 ^ digits) :
    (Nat.toDigits 10 (UInt32.ofNat n).toNat).length ≤ digits := by
  rw [Nat.length_toDigits_le_iff (by decide) hpos]
  exact Nat.lt_of_le_of_lt (Nat.mod_le n (2 ^ 32)) h

theorem linkReport_eq (hcounted : r.received + r.crcErrors + r.invalid ≤ 4000)
    (hlost : r.lost < 2 ^ 16) :
    linkReport phy4 r cycleSpan =
      some (linkHead phy4 r.passed ++ itemsText (printedAll (linkCounts r cycleSpan)) ++
        ['\r', '\n']) := by
  have hrun : linkReport phy4 r cycleSpan =
      (linkHead phy4 r.passed ++ itemsText (printedAll (linkCounts r cycleSpan)) ++
        ['\r', '\n']).foldlM (putWithin outputSize) [] := by
    simp only [linkReport, appendCounter, appendText, appendU32_eq, receivedLabel_eq, bind_assoc]
    simp only [← List.foldlM_append]
    simp [itemsText, Item.text, printed, printedAll, linkCounts]
  have hlength : (linkHead phy4 r.passed ++ itemsText (printedAll (linkCounts r cycleSpan)) ++
      ['\r', '\n']).length ≤ outputSize := by
    have hhead := (linkHead_plain phy4 r.passed).1
    have hreceived : (Nat.toDigits 10 (UInt32.ofNat r.received).toNat).length ≤ 4 :=
      digits_le (by decide) (by omega)
    have hlost : (Nat.toDigits 10 (UInt32.ofNat r.lost).toNat).length ≤ 5 :=
      digits_le (by decide) (by omega)
    have hcrc : (Nat.toDigits 10 (UInt32.ofNat r.crcErrors).toNat).length ≤ 4 :=
      digits_le (by decide) (by omega)
    have hinvalid : (Nat.toDigits 10 (UInt32.ofNat r.invalid).toNat).length ≤ 4 :=
      digits_le (by decide) (by omega)
    have hcycles := RetryLink.digits_length cycleSpan
    have hnames : "received".length = 8 ∧ "lost".length = 4 ∧ "crc".length = 3 ∧
        "invalid".length = 7 ∧ "cycles".length = 6 := by decide
    simp only [printedAll, linkCounts, List.map_cons, List.map_nil, itemsText_cons,
      List.length_append, printed_length, hhead, itemsText_nil, List.length_nil,
      List.length_cons, outputSize]
    omega
  rw [hrun, putWithin_all (by simpa using hlength)]
  simp

def coexHead (r : Receiver) : List Char :=
  if r.coexPassed then "NRFKIT_M7_PEER_COEX PASS".toList else "NRFKIT_M7_PEER_COEX FAIL".toList

def coexCounts (r : Receiver) : Counts :=
  if r.coexPassed then
    [("received", (UInt32.ofNat r.received).toNat), ("lost", (UInt32.ofNat r.lost).toNat),
      ("last", (UInt32.ofNat (r.expected - 1)).toNat), ("invalid", 0)]
  else
    [("rx", (UInt32.ofNat r.received).toNat),
      ("last", (UInt32.ofNat (if r.expected = 0 then 0 else r.expected - 1)).toNat),
      ("invalid", (UInt32.ofNat r.invalid).toNat)]

theorem coexReport_eq (r : Receiver) :
    coexReport r = coexHead r ++ itemsText (printedAll (coexCounts r)) ++ ['\n'] := by
  have hzero : Nat.toDigits 10 0 = ['0'] := by decide
  unfold coexReport coexHead coexCounts
  split
  · simp [itemsText, Item.text, printed, printedAll, unsigned, hzero]
  · simp [itemsText, Item.text, printed, printedAll, unsigned]

theorem link_names : ∀ name ∈ (linkCounts r cycleSpan).map Prod.fst, IsName name.toList := by
  show ∀ name ∈ ["received", "lost", "crc", "invalid", "cycles"], IsName name.toList
  simp [IsName]

theorem coex_names : ∀ name ∈ (coexCounts r).map Prod.fst, IsName name.toList := by
  unfold coexCounts
  split
  · show ∀ name ∈ ["received", "lost", "last", "invalid"], IsName name.toList
    simp [IsName]
  · show ∀ name ∈ ["rx", "last", "invalid"], IsName name.toList
    simp [IsName]

theorem coexHead_plain (r : Receiver) : '\r' ∉ coexHead r ∧ '=' ∉ coexHead r := by
  unfold coexHead
  split <;> decide

/-- Both lines show the number of the last packet. -/
theorem coexCounts_last (h : r.expected ≤ 2 ^ 16) :
    "last" ∈ (coexCounts r).map Prod.fst ∧ (coexCounts r).of "last" = r.expected - 1 := by
  have hword : (UInt32.ofNat (r.expected - 1)).toNat = r.expected - 1 := word_toNat (by omega)
  unfold coexCounts
  split
  · simp [Counts.of, List.lookup_cons, hword]
  · have hlast : (if r.expected = 0 then 0 else r.expected - 1) = r.expected - 1 := by
      split <;> omega
    rw [hlast, hword]
    simp [Counts.of, List.lookup_cons]

end

/-! ## The host reads them -/

section
variable {u : Unicode} {values : Counts} {head line text : List Char} {name message : String}
    {least value : Nat}

/-- A line of counters, as one of the radios writes it. -/
structure Shows (line : List Char) (values : Counts) : Prop where
  names : ∀ name ∈ values.map Prod.fst, IsName name.toList
  written : ∃ head, ('\r' ∉ head ∧ '=' ∉ head) ∧
    (line = head ++ itemsText (printedAll values) ++ ['\r', '\n'] ∨
    line = head ++ itemsText (printedAll values) ++ ['\n'])

/-- A counter that is found in a line that may be cut is at most what was printed. -/
theorem Shows.cut (h : Shows line values)
    (hheard : Heard line text) (hname : name ∈ values.map Prod.fst)
    (hread : requireCounter u name least message text = .ok value) :
    least ≤ value ∧ value ≤ values.of name := by
  obtain ⟨head, hhead, hline⟩ := h.written
  obtain ⟨noise, later, hnoise, htext⟩ := hheard
  rw [shown_line h.names hhead.1 hline] at htext
  obtain ⟨items, hcut, hitems⟩ :=
    cut_items (proper_printed h.names) (List.not_mem_append hnoise hhead.2)
      (stops_newline (u := u) later) htext
  unfold requireCounter at hread
  split at hread
  · cases hread
  rename_i digits hfound
  split at hread
  · cases hread
  rename_i hleast
  obtain rfl := Except.ok.inj hread
  rw [hitems name.toList (h.names name hname) (mem_printed.mpr hname)] at hfound
  obtain ⟨whole, hwhole, hleading⟩ := hcut.leading hfound
  rw [lookup_printed, lookup_of hname] at hwhole
  obtain rfl := Option.some.inj hwhole
  exact ⟨Nat.le_of_not_lt hleast, int_leading hleading⟩

/-- In a line that is whole each counter is found. -/
theorem Shows.all (h : Shows line values) (hheard : HeardAll line text)
    (hname : name ∈ values.map Prod.fst) (hleast : least ≤ values.of name) :
    requireCounter u name least message text = .ok (values.of name) := by
  obtain ⟨head, hhead, hline⟩ := h.written
  obtain ⟨noise, later, hnoise, rfl⟩ := hheard
  have hsearch := whole_items (proper_printed h.names) (List.not_mem_append hnoise hhead.2)
    (stops_newline (u := u) later)
    (h.names name hname) (mem_printed.mpr hname)
  rw [lookup_printed, lookup_of hname, Option.map_some] at hsearch
  have hvalue : u.int (Nat.toDigits 10 (values.of name)) = values.of name := int_printed _
  rw [requireCounter, shown_line h.names hhead.1 hline, hsearch]
  exact (if_neg (by omega)).trans (congrArg Except.ok hvalue)

end

theorem linkReport_shows {r : Receiver} {cycleSpan : UInt32} {phy4 : Bool}
    (hcounted : r.received + r.crcErrors + r.invalid ≤ 4000) (hlost : r.lost < 2 ^ 16) :
    ∃ report, linkReport phy4 r cycleSpan = some report ∧ Shows report (linkCounts r cycleSpan) :=
  ⟨_, linkReport_eq hcounted hlost, link_names, _, (linkHead_plain phy4 r.passed).2, .inl rfl⟩

theorem coexReport_shows (r : Receiver) : Shows (coexReport r) (coexCounts r) :=
  ⟨coex_names, _, coexHead_plain r, .inr (coexReport_eq r)⟩

/-- **What the host takes from a one-way link.** The receiver's line fits its array whatever
was delivered. Wherever the console was cut, a CRC rejection the host records was one: at
least as many packets came with a wrong CRC; and a coexistence round it accepts is one in
which the peer received a packet of the burst with at least that number. Lines that were read
as a whole give exactly the counters. -/
theorem one_way_reported (u : Unicode) (phy4 : Bool) (milestone : String) (cycleSpan : UInt32)
    (listens : List Listen) :
    let link := Receiver.run linkRx {} listens
    let coex := Receiver.run peerCoexRx {} listens
    (∃ report, linkReport phy4 link cycleSpan = some report ∧
      (∀ rx rejected, Heard report rx → crcRejection u milestone rx = .ok rejected →
        1 ≤ rejected ∧ rejected ≤ damaged listens) ∧
      (∀ rx, HeardAll report rx → 1 ≤ link.crcErrors →
        crcRejection u milestone rx = .ok link.crcErrors)) ∧
    (∀ rx last, Heard (coexReport coex) rx → lastReceived u rx = .ok last →
      15 ≤ last ∧ ∃ packet ∈ intact listens, last ≤ sequenceOf packet) ∧
    (∀ rx, HeardAll (coexReport coex) rx → coex.coexPassed = true →
      lastReceived u rx = .ok (coex.expected - 1)) := by
  intro link coex
  have haccount : Accounted link := accounted_run linkRx listens
  have hattempts : Attempted linkRx listens.length link := attempted_run linkRx listens
  have hcounted : link.received + link.crcErrors + link.invalid ≤ 4000 :=
    Nat.le_trans hattempts.counted hattempts.limit
  have hdamaged : link.crcErrors ≤ damaged listens := (rejected_run linkRx listens).le
  have hcrc : "crc" ∈ (linkCounts link cycleSpan).map Prod.fst ∧
      (linkCounts link cycleSpan).of "crc" = link.crcErrors :=
    ⟨by simp [linkCounts], word_toNat (by omega)⟩
  have hcoex : Accounted coex := accounted_run peerCoexRx listens
  have hlast := coexCounts_last hcoex.expected
  obtain ⟨report, hreport, hshows⟩ :=
    @linkReport_shows link cycleSpan phy4 hcounted haccount.lost_lt
  refine ⟨⟨report, hreport, fun rx rejected hrx hround => ?_, fun rx hrx hone => ?_⟩,
    fun rx last hrx hround => ?_, fun rx hrx hpassed => ?_⟩
  · have hbounds := hshows.cut hrx hcrc.1 hround
    omega
  · rw [← hcrc.2] at hone ⊢
    exact hshows.all hrx hcrc.1 hone
  · obtain ⟨hleast, hmost⟩ := (coexReport_shows coex).cut hrx hlast.1 hround
    rw [hlast.2] at hmost
    have hne : coex.accepted ≠ [] := fun hnil => by
      have hzero := (hcoex.unstarted hnil).1
      omega
    obtain ⟨s, hs, hexpected⟩ := hcoex.last hne
    obtain ⟨packet, hpacket, rfl⟩ := List.mem_map.mp ((accepted_run peerCoexRx listens).subset hs)
    exact ⟨hleast, packet, hpacket, by omega⟩
  · have hgate : 16 ≤ coex.expected ∧ coex.invalid = 0 := by
      simpa [Receiver.coexPassed] using hpassed
    rw [← hlast.2]
    exact (coexReport_shows coex).all hrx hlast.1 (by omega)

/-- The damaged packet is found on the console, and so is the last one. -/
theorem one_way_reported_damaged (u : Unicode) :
    ∃ report, linkReport false (Receiver.run linkRx {} oneDamaged) 5000 = some report ∧
      crcRejection u "M7" (RetryLink.shown "boot ".toList report []) = .ok 1 ∧
      lastReceived u
        (RetryLink.shown [] (coexReport (Receiver.run peerCoexRx {} oneDamaged)) []) = .ok 15 := by
  obtain ⟨⟨report, hreport, -, hcrc⟩, -, hlast⟩ := one_way_reported u false "M7" 5000 oneDamaged
  have hone : (Receiver.run linkRx {} oneDamaged).crcErrors = 1 := by decide +kernel
  have hexpected : (Receiver.run peerCoexRx {} oneDamaged).expected = 16 := by decide +kernel
  have hrejected := hcrc _ ⟨"boot ".toList, [], by decide, rfl⟩ (by rw [hone])
  have hreceived := hlast _ ⟨[], [], by decide, rfl⟩ (by decide +kernel)
  rw [hone] at hrejected
  rw [hexpected] at hreceived
  exact ⟨report, hreport, hrejected, hreceived⟩

end NrfKit.RadioLink
