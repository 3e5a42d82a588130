import Mathlib.Data.List.Infix
import NrfKit.Lib.Fields
import NrfKit.RetryLink.Counters
import NrfKit.Tools.Cli

/- The report of a retry run: the line `main` of `examples/m7-timeslot-retry/main.c` puts together
   in its `output`, the line the server of `tests/hardware/m5-radio-peer/src/main.c` prints, and
   what `command_m5_radio_dual` of `tools/nrfkit_tools/cli.py` takes from both consoles.

   A byte of a line is the character it stands for. The consoles may begin with anything that
   has no `=` and may end anywhere: the host reads until shortly behind the token. -/
namespace NrfKit.RetryLink
open Fields Python NrfKit.Tools.Cli

/-! ## The client's line -/

def outputSize : Nat := 192

/-- `output[position++] = c` to an array of `size` bytes; `none` is a write behind it. -/
def putWithin (size : Nat) (output : List Char) (c : Char) : Option (List Char) :=
  if output.length < size then some (output ++ [c]) else none

/-- `output[position++] = c`; `none` is a write behind the array. -/
def put (output : List Char) (c : Char) : Option (List Char) :=
  if output.length < outputSize then some (output ++ [c]) else none

/-- The loop that fills `reversed`, with `room` bytes left of it. -/
def reversedLoop : Nat → UInt32 → List Char → Option (List Char)
  | 0, _, _ => none
  | room + 1, value, reversed =>
    let reversed := reversed ++ [Nat.digitChar (value % 10).toNat]
    let value := value / 10
    if value ≠ 0 then reversedLoop room value reversed else some reversed

def appendU32 (output : List Char) (value : UInt32) : Option (List Char) := do
  let reversed ← reversedLoop 10 value []
  reversed.reverse.foldlM put output

def appendText (output : List Char) (text : String) : Option (List Char) :=
  text.toList.foldlM put output

/-- `APPEND_COUNTER`. -/
def appendCounter (output : List Char) (label : String) (value : UInt32) : Option (List Char) := do
  let output ← appendText output label
  appendU32 output value

/-- What `main` calls a pass. -/
def Client.passed (c : Client) (sleeps : UInt32) : Bool :=
  UInt32.ofNat c.accepted = 64 ∧ UInt32.ofNat c.completed = 64 ∧ UInt32.ofNat c.dropped = 0 ∧
  8 ≤ UInt32.ofNat c.retries ∧
    UInt32.ofNat c.retries ≤ 192 ∧ UInt8.ofNat c.queuePeak = 8 ∧
    UInt32.ofNat c.channelSwitches = 4 ∧ sleeps ≠ 0

/-- The line `main` writes when the session is closed. -/
def clientReport (c : Client) (sleeps transferTicks : UInt32) : Option (List Char) := do
  let output ← appendText [] (if c.passed sleeps then "NRFKIT_M7_RETRY PASS accepted="
    else "NRFKIT_M7_RETRY FAIL accepted=")
  let output ← appendU32 output (UInt32.ofNat c.accepted)
  let output ← appendCounter output " completed=" (UInt32.ofNat c.completed)
  let output ← appendCounter output " retries=" (UInt32.ofNat c.retries)
  let output ← appendCounter output " dropped=" (UInt32.ofNat c.dropped)
  let output ← appendCounter output " peak=" (UInt8.ofNat c.queuePeak).toUInt32
  let output ← appendCounter output " channels=" (UInt32.ofNat c.channelSwitches)
  let output ← appendCounter output " grants=" (UInt32.ofNat c.grants)
  let output ← appendCounter output " sleeps=" sleeps
  let output ← appendCounter output " ticks=" transferTicks
  appendText output "\r\n"

/-! ## The server's line -/

/-- `%u`. -/
def unsigned (n : Nat) : String := String.ofList (Nat.toDigits 10 (UInt32.ofNat n).toNat)

def Server.failed (s : Server) : Bool :=
  s.completed ≠ 64 ∨ s.intentionalDrops ≠ 8 ∨ s.suppressedAcks ≠ 1 ∨
  s.duplicateAcks < s.suppressedAcks ∨
    s.channelSwitches ≠ 4 ∨ s.invalid ≠ 0

def serverReport (s : Server) : List Char :=
  if s.failed then
    ("NRFKIT_M7_PEER_RETRY FAIL completed=" ++ unsigned s.completed ++ " drops=" ++
      unsigned s.intentionalDrops ++ " suppressed=" ++
      unsigned s.suppressedAcks ++ " duplicates=" ++ unsigned s.duplicateAcks ++ " channels=" ++
      unsigned s.channelSwitches ++ " invalid=" ++ unsigned s.invalid ++ "\n").toList
  else
    ("NRFKIT_M7_PEER_RETRY PASS completed=64 drops=8 suppressed=1 channels=4 invalid=0 duplicates=" ++
      unsigned s.duplicateAcks ++ "\n").toList

/-! ## The host -/

/-- `counter(transcript, name)`. -/
def counter (u : Unicode) (transcript : List Char) (name : String) : Except Raised Nat :=
  match search (field u name.toList) transcript with
  | none => .error (toolError ("M7 retry contract has no " ++ name ++ " counter"))
  | some digits => .ok (u.int digits)

/-- The counters of the names, and `counters[name]` of one of them. -/
abbrev Counts := List (String × Nat)

def counters (u : Unicode) (transcript : List Char) : List String → Except Raised Counts
  | [] => .ok []
  | name :: names => do
    let value ← counter u transcript name
    let found ← counters u transcript names
    pure ((name, value) :: found)

def Counts.of (found : Counts) (name : String) : Nat := (found.lookup name).getD 0

def txNames : List String :=
  ["accepted", "completed", "retries", "dropped", "peak", "channels", "ticks"]

def rxNames : List String :=
  ["completed", "drops", "suppressed", "channels", "invalid", "duplicates"]

def unconserved (tx rx : Counts) : Bool :=
  tx.of "accepted" ≠ 64 ∨ tx.of "completed" ≠ 64 ∨ tx.of "dropped" ≠ 0 ∨ tx.of "peak" ≠ 8 ∨
  tx.of "channels" ≠ 4 ∨
    tx.of "retries" < 8 ∨ tx.of "retries" > 64 * 3 ∨ rx.of "completed" ≠ 64 ∨ rx.of "drops" ≠ 8 ∨
    rx.of "suppressed" ≠ 1 ∨
    rx.of "channels" ≠ 4 ∨ rx.of "invalid" ≠ 0 ∨ rx.of "duplicates" < rx.of "suppressed" ∨
    tx.of "retries" < rx.of "drops" + rx.of "suppressed"

/-- The stage `retry-queue-channel`. -/
structure RetryStage where
  grtcTicks : Nat
  retries : Nat
  suppressedAcks : Nat
  duplicateAcks : Nat
  deriving DecidableEq

/-- A run is over when its token was seen. -/
def requireToken (token : String) (transcript : List Char) : Except Raised Unit :=
  raiseIf (¬ token.toList <:+: transcript)
    (toolError "expected serial token was not observed before timeout")

/-- The end of a round of `command_m5_radio_dual` with the retry contract. -/
def retryRound (u : Unicode)
    (txTranscript rxTranscript : List Char) : Except Raised RetryStage := do
  requireToken "NRFKIT_M7_RETRY PASS" txTranscript
  requireToken "NRFKIT_M7_PEER_RETRY PASS" rxTranscript
  let tx ← counters u txTranscript txNames
  let rx ← counters u rxTranscript rxNames
  raiseIf (unconserved tx rx) (toolError "M7 retry/queue/channel counters are not conserved")
  pure ⟨tx.of "ticks", tx.of "retries", rx.of "suppressed", rx.of "duplicates"⟩

/-! ## Between them -/

/-- `read_text`: both `"\r\n"` and `"\r"` come as `"\n"`. -/
def newlines : List Char → List Char
  | [] => []
  | '\r' :: '\n' :: rest => '\n' :: newlines rest
  | '\r' :: rest => '\n' :: newlines rest
  | c :: rest => c :: newlines rest

/-- What is read of a console that shows the report behind `noise`. -/
def shown (noise report later : List Char) : List Char := noise ++ (newlines report ++ later)

/-- The console was read up to anywhere. -/
def Heard (report transcript : List Char) : Prop :=
  ∃ noise later, '=' ∉ noise ∧ transcript <+: shown noise report later

/-- The console was read beyond the report. -/
def HeardAll (report transcript : List Char) : Prop :=
  ∃ noise later, '=' ∉ noise ∧ transcript = shown noise report later

/-! ## The client's line is written -/

theorem reversedLoop_digits :
    ∀ {room : Nat} {value : UInt32} {reversed : List Char}, value.toNat < 10 ^ room →
    0 < room → reversedLoop room value reversed =
      some (reversed ++ (Nat.toDigits 10 value.toNat).reverse)
  | 0, _, _, _, h => absurd h (by decide)
  | room + 1, value, reversed, hroom, _ => by
    have hmod : (value % 10).toNat = value.toNat % 10 := by simp
    have hdiv : (value / 10).toNat = value.toNat / 10 := by simp
    have hzero : value / 10 ≠ 0 ↔ 10 ≤ value.toNat := by
      rw [Ne, ← UInt32.toNat_inj, hdiv, UInt32.toNat_zero]
      omega
    rw [reversedLoop]
    simp only [hzero]
    split
    · rename_i hmore
      have hless : (value / 10).toNat < 10 ^ room := by
        rw [hdiv]
        rw [Nat.pow_succ] at hroom
        omega
      have hpos : 0 < room := by
        rcases Nat.eq_zero_or_pos room with rfl | hpos
        · omega
        · exact hpos
      rw [reversedLoop_digits hless hpos, hdiv, hmod, Nat.toDigits_of_base_le (by decide) hmore]
      simp
    · rename_i hlast
      rw [hmod, Nat.toDigits_of_lt_base (by omega), Nat.mod_eq_of_lt (by omega)]
      simp

theorem digits_length (value : UInt32) : (Nat.toDigits 10 value.toNat).length ≤ 10 :=
  (Nat.length_toDigits_le_iff (by decide) (by decide)).mpr (Nat.lt_trans value.toNat_lt (by decide))

theorem appendU32_eq (output : List Char) (value : UInt32) :
    appendU32 output value = (Nat.toDigits 10 value.toNat).foldlM put output := by
  have hroom : value.toNat < 10 ^ 10 := Nat.lt_trans value.toNat_lt (by decide)
  rw [appendU32, reversedLoop_digits hroom (by decide)]
  simp

theorem putWithin_all {size : Nat} {output text : List Char}
    (h : output.length + text.length ≤ size) :
    text.foldlM (putWithin size) output = some (output ++ text) := by
  induction text generalizing output with
  | nil => simp
  | cons c text ih =>
    rw [List.length_cons] at h
    have hroom : output.length < size := by omega
    rw [List.foldlM_cons, putWithin, if_pos hroom]
    refine (ih ?_).trans ?_
    · rw [List.length_append, List.length_singleton]
      omega
    · simp

theorem put_all {output text : List Char} (h : output.length + text.length ≤ outputSize) :
    text.foldlM put output = some (output ++ text) := putWithin_all h

def printedAll (values : Counts) : List Item := values.map fun value => printed value.1 value.2

/-- What a client prints before its ticks. -/
def Client.counts (c : Client) (sleeps : UInt32) : Counts :=
  [("accepted", (UInt32.ofNat c.accepted).toNat), ("completed", (UInt32.ofNat c.completed).toNat),
    ("retries", (UInt32.ofNat c.retries).toNat), ("dropped", (UInt32.ofNat c.dropped).toNat),
    ("peak", (UInt8.ofNat c.queuePeak).toUInt32.toNat),
      ("channels", (UInt32.ofNat c.channelSwitches).toNat),
    ("grants", (UInt32.ofNat c.grants).toNat), ("sleeps", sleeps.toNat)]

def Client.head (c : Client) (sleeps : UInt32) : List Char :=
  if c.passed sleeps then "NRFKIT_M7_RETRY PASS".toList else "NRFKIT_M7_RETRY FAIL".toList

theorem clientReport_eq (c : Client) (sleeps transferTicks : UInt32) :
    clientReport c sleeps transferTicks =
      some (c.head sleeps ++ itemsText
        (printedAll (c.counts sleeps ++ [("ticks", transferTicks.toNat)])) ++ ['\r', '\n']) := by
  have hrun : clientReport c sleeps transferTicks =
      (c.head sleeps ++ itemsText (printedAll
        (c.counts sleeps ++ [("ticks", transferTicks.toNat)])) ++ ['\r', '\n']).foldlM put [] := by
    have hfirst : (if c.passed sleeps = true then "NRFKIT_M7_RETRY PASS accepted="
        else "NRFKIT_M7_RETRY FAIL accepted=").toList =
        c.head sleeps ++ ' ' :: "accepted=".toList := by
      unfold Client.head
      split <;> rfl
    simp only [clientReport, appendCounter, appendText, appendU32_eq, hfirst, bind_assoc]
    simp only [← List.foldlM_append]
    simp [itemsText, Item.text, printed, printedAll, Client.counts]
  have hhead : (c.head sleeps).length = 20 := by
    unfold Client.head
    split <;> rfl
  have hlength : (c.head sleeps ++
      itemsText (printedAll (c.counts sleeps ++ [("ticks", transferTicks.toNat)])) ++
      ['\r', '\n']).length ≤ outputSize := by
    have haccepted := digits_length (UInt32.ofNat c.accepted)
    have hcompleted := digits_length (UInt32.ofNat c.completed)
    have hretries := digits_length (UInt32.ofNat c.retries)
    have hdropped := digits_length (UInt32.ofNat c.dropped)
    have hpeak := digits_length (UInt8.ofNat c.queuePeak).toUInt32
    have hchannels := digits_length (UInt32.ofNat c.channelSwitches)
    have hgrants := digits_length (UInt32.ofNat c.grants)
    have hsleeps := digits_length sleeps
    have hticks := digits_length transferTicks
    have hnames : "accepted".length = 8 ∧ "completed".length = 9 ∧ "retries".length = 7 ∧
        "dropped".length = 7 ∧ "peak".length = 4 ∧
        "channels".length = 8 ∧ "grants".length = 6 ∧ "sleeps".length = 6 ∧
        "ticks".length = 5 := by decide
    simp only [printedAll, Client.counts, List.map_cons, List.map_nil, List.cons_append,
      List.nil_append, itemsText_cons, List.length_append, printed_length, hhead, itemsText_nil,
      List.length_nil, List.length_cons, outputSize]
    omega
  rw [hrun, put_all (by simpa using hlength)]
  simp

/-- What a server prints before its last counter, and that counter. -/
def Server.counts (s : Server) : Counts × (String × Nat) :=
  if s.failed then
    ([("completed", (UInt32.ofNat s.completed).toNat),
      ("drops", (UInt32.ofNat s.intentionalDrops).toNat),
      ("suppressed", (UInt32.ofNat s.suppressedAcks).toNat),
        ("duplicates", (UInt32.ofNat s.duplicateAcks).toNat),
      ("channels", (UInt32.ofNat s.channelSwitches).toNat)], ("invalid",
        (UInt32.ofNat s.invalid).toNat))
  else
    ([("completed", 64), ("drops", 8), ("suppressed", 1), ("channels", 4), ("invalid", 0)],
      ("duplicates", (UInt32.ofNat s.duplicateAcks).toNat))

def Server.head (s : Server) : List Char :=
  if s.failed then "NRFKIT_M7_PEER_RETRY FAIL".toList else "NRFKIT_M7_PEER_RETRY PASS".toList

theorem serverReport_eq (s : Server) :
    serverReport s = s.head ++ itemsText (printedAll (s.counts.1 ++ [s.counts.2])) ++ ['\n'] := by
  have hdigits : Nat.toDigits 10 64 = ['6', '4'] ∧ Nat.toDigits 10 8 = ['8'] ∧
      Nat.toDigits 10 1 = ['1'] ∧ Nat.toDigits 10 4 = ['4'] ∧ Nat.toDigits 10 0 = ['0'] := by decide
  unfold serverReport Server.head Server.counts
  split
  · simp [itemsText, Item.text, printed, printedAll, unsigned]
  · simp [itemsText, Item.text, printed, printedAll, unsigned, hdigits]

/-! ## The host reads what was printed -/

section
variable {u : Unicode} {text noise later : List Char}

theorem lookup_printed (values : Counts) (name : String) :
    (printedAll values).lookup name.toList = (values.lookup name).map fun value =>
      Nat.toDigits 10 value := by
  induction values with
  | nil => rfl
  | cons value values ih =>
    show ((value.1.toList, Nat.toDigits 10 value.2) :: printedAll values).lookup name.toList = _
    rw [List.lookup_cons, List.lookup_cons]
    by_cases hname : name = value.1
    · simp [hname]
    · have hlist : name.toList ≠ value.1.toList := fun heq => hname (String.toList_inj.mp heq)
      rw [beq_false_of_ne hlist, beq_false_of_ne hname]
      exact ih

theorem mem_printed {values : Counts} {name : String} :
    name.toList ∈ (printedAll values).map Prod.fst ↔ name ∈ values.map Prod.fst := by
  simp [printedAll, printed, String.toList_inj]

theorem proper_printed {values : Counts}
    (hnames : ∀ name ∈ values.map Prod.fst, IsName name.toList) :
    ∀ item ∈ printedAll values, item.Proper := by
  intro item hitem
  obtain ⟨value, hvalue, rfl⟩ := List.mem_map.mp hitem
  exact printed_proper (hnames value.1 (List.mem_map.mpr ⟨value, hvalue, rfl⟩)) value.2

theorem stops_newline (later : List Char) : Stops u ('\n' :: later) := by
  intro c hc
  obtain rfl : '\n' = c := Option.some.inj hc
  rw [Unicode.isWord, Unicode.isDigit, if_pos (by decide), if_pos (by decide)]
  decide

theorem lookup_of {values : Counts} {name : String} (h : name ∈ values.map Prod.fst) :
    values.lookup name = some (values.of name) := by
  induction values with
  | nil => cases h
  | cons value values ih =>
    unfold Counts.of
    rw [List.lookup_cons]
    by_cases hname : name = value.1
    · simp [hname]
    · rw [beq_false_of_ne hname]
      exact ih ((List.mem_cons.mp h).resolve_left hname)

/-- A counter of a line that is whole. -/
theorem counter_all {values : Counts} (hnames : ∀ name ∈ values.map Prod.fst, IsName name.toList)
    (hnoise : '=' ∉ noise) {name : String} (h : name ∈ values.map Prod.fst) :
    counter u (noise ++ (itemsText (printedAll values) ++ '\n' :: later)) name =
      .ok (values.of name) := by
  have hsearch := whole_items (proper_printed hnames) hnoise (stops_newline (u := u) later)
    (hnames name h) (mem_printed.mpr h)
  rw [lookup_printed, lookup_of h] at hsearch
  rw [counter, hsearch]
  exact congrArg Except.ok (int_printed _)

/-- Where the last counter of a line that was cut is found all others are as they were printed. -/
theorem counter_cut {front : Counts} {last : String × Nat}
    (hnames : ∀ name ∈ (front ++ [last]).map Prod.fst, IsName name.toList)
    (hnew : last.1 ∉ front.map Prod.fst) (hnoise : '=' ∉ noise)
    (htext : text <+: noise ++ (itemsText (printedAll (front ++ [last])) ++ '\n' :: later))
    {value : Nat} (hlast : counter u text last.1 = .ok value) :
    value ≤ last.2 ∧ ∀ name ∈ front.map Prod.fst, counter u text name = .ok (front.of name) := by
  obtain ⟨items, hcut, hitems⟩ :=
    cut_items (proper_printed hnames) hnoise (stops_newline (u := u) later) htext
  have hsearch : ∀ name ∈ (front ++ [last]).map Prod.fst,
      search (field u name.toList) text = items.lookup name.toList := by
    exact fun name hname => hitems name.toList (hnames name hname) (mem_printed.mpr hname)
  have hfront : ∀ item ∈ printedAll front, item.1 ≠ last.1.toList := by
    intro item hitem heq
    obtain ⟨other, hother, rfl⟩ := List.mem_map.mp hitem
    exact hnew (List.mem_map.mpr ⟨other, hother, String.toList_inj.mp heq⟩)
  have hlines : printedAll (front ++ [last]) = printedAll front ++
      [(last.1.toList, Nat.toDigits 10 last.2)] := List.map_append
  rw [hlines] at hcut
  rw [counter, hsearch last.1 (by simp)] at hlast
  cases hfound : items.lookup last.1.toList with
  | none =>
    rw [hfound] at hlast
    cases hlast
  | some digits =>
    rw [hfound] at hlast
    obtain rfl : u.int digits = value := Except.ok.inj hlast
    obtain ⟨hleading, rfl⟩ := hcut.last hfront hfound
    refine ⟨?_, fun name hname => ?_⟩
    · exact int_leading hleading
    · have hmem : name ∈ (front ++ [last]).map Prod.fst := by
        rw [List.map_append]
        exact List.mem_append_left _ hname
      rw [counter, hsearch name hmem, List.lookup_append, lookup_printed, lookup_of hname]
      exact congrArg Except.ok (int_printed _)

theorem counters_ok {names : List String} {found : Counts} (h : counters u text names = .ok found) :
    ∀ name ∈ names, counter u text name = .ok (found.of name) := by
  induction names generalizing found with
  | nil => exact fun _ hname => by cases hname
  | cons first names ih =>
    obtain ⟨value, hvalue, h⟩ := bind_ok.mp h
    obtain ⟨others, hothers, h⟩ := bind_ok.mp h
    obtain rfl := pure_ok.mp h
    intro name hname
    unfold Counts.of
    rw [List.lookup_cons]
    by_cases hfirst : name = first
    · simpa [hfirst] using hvalue
    · rw [beq_false_of_ne hfirst]
      exact ih hothers name ((List.mem_cons.mp hname).resolve_left hfirst)

theorem counters_of {names : List String} {values : Counts}
    (h : ∀ name ∈ names, counter u text name = .ok (values.of name)) :
    counters u text names = .ok (names.map fun name => (name, values.of name)) := by
  induction names with
  | nil => rfl
  | cons name names ih =>
    obtain ⟨hname, hnames⟩ := List.forall_mem_cons.mp h
    exact bind_ok.mpr ⟨_, hname, bind_ok.mpr ⟨_, ih hnames, rfl⟩⟩

end

/-! ## A round -/

section
variable {u : Unicode} {l : Link} {sleeps transferTicks : UInt32}

theorem newlines_plain {line rest : List Char} (h : '\r' ∉ line) :
    newlines (line ++ rest) = line ++ newlines rest := by
  induction line with
  | nil => rfl
  | cons c line ih =>
    have hc : c ≠ '\r' := fun heq => h (by rw [heq]; exact List.mem_cons_self ..)
    have hline : '\r' ∉ line := fun hmem => h (List.mem_cons_of_mem _ hmem)
    rw [List.cons_append, List.cons_append, ← ih hline]
    simp [newlines, hc]

/-- Printed fields have no carriage return. -/
theorem printed_plain {values : Counts}
    (hnames : ∀ name ∈ values.map Prod.fst, IsName name.toList) :
    '\r' ∉ itemsText (printedAll values) := by
  intro hmem
  obtain ⟨item, hitem, hmem⟩ := List.mem_flatMap.mp hmem
  have hproper := proper_printed hnames item hitem
  rcases List.mem_cons.mp hmem with hblank | hmem
  · cases hblank
  · rcases List.mem_append.mp hmem with hname | hmem
    · exact absurd (hproper.name.2 _ hname) (by decide)
    · rcases List.mem_cons.mp hmem with hsign | hdigit
      · cases hsign
      · exact absurd (hproper.digits _ hdigit) (by decide)

/-- A line of counters as it is read. -/
theorem shown_line {values : Counts} (hnames : ∀ name ∈ values.map Prod.fst, IsName name.toList)
    {head line : List Char} (hhead : '\r' ∉ head)
    (hline : line = head ++ itemsText (printedAll values) ++ ['\r', '\n'] ∨
      line = head ++ itemsText (printedAll values) ++ ['\n']) :
    shown noise line later = (noise ++ head) ++
      (itemsText (printedAll values) ++ '\n' :: later) := by
  have hplain : '\r' ∉ head ++ itemsText (printedAll values) :=
    List.not_mem_append hhead (printed_plain hnames)
  rcases hline with rfl | rfl <;> rw [shown, newlines_plain hplain] <;> simp [newlines]

theorem client_names :
    ∀ name ∈ (l.client.counts sleeps ++ [("ticks", transferTicks.toNat)]).map Prod.fst,
      IsName name.toList := by
  show ∀ name ∈ ["accepted", "completed", "retries", "dropped", "peak", "channels", "grants",
    "sleeps", "ticks"], IsName name.toList
  simp [IsName]

theorem server_names :
    ∀ name ∈ (l.server.counts.1 ++ [l.server.counts.2]).map Prod.fst, IsName name.toList := by
  unfold Server.counts
  split
  · show ∀ name ∈ ["completed", "drops", "suppressed", "duplicates", "channels", "invalid"],
      IsName name.toList
    simp [IsName]
  · show ∀ name ∈ ["completed", "drops", "suppressed", "channels", "invalid", "duplicates"],
      IsName name.toList
    simp [IsName]

/-- What the host counts of a client's line that may be cut. -/
theorem tx_counted {report tx : List Char} {found : Counts}
    (hreport : clientReport l.client sleeps transferTicks = some report) (hheard : Heard report tx)
    (hfound : counters u tx txNames = .ok found) :
    found.of "ticks" ≤ transferTicks.toNat ∧
      ∀ name ∈ ["accepted", "completed", "retries", "dropped", "peak", "channels"],
        found.of name = (l.client.counts sleeps).of name := by
  rw [clientReport_eq] at hreport
  obtain rfl := Option.some.inj hreport
  obtain ⟨noise, later, hnoise, htext⟩ := hheard
  have hhead : '\r' ∉ l.client.head sleeps ∧ '=' ∉ l.client.head sleeps := by
    unfold Client.head
    split <;> decide
  rw [shown_line client_names hhead.1 (.inl rfl)] at htext
  have hnoise' : '=' ∉ noise ++ l.client.head sleeps := List.not_mem_append hnoise hhead.2
  have hcounted := counters_ok hfound
  have hnew : "ticks" ∉ (l.client.counts sleeps).map Prod.fst := by
    show "ticks" ∉ ["accepted", "completed", "retries", "dropped", "peak", "channels",
      "grants", "sleeps"]
    decide
  obtain ⟨hticks, hothers⟩ :=
    counter_cut client_names hnew hnoise' htext (hcounted "ticks" (by decide))
  refine ⟨hticks, fun name hname => ?_⟩
  have hlisted : ∀ name ∈ ["accepted", "completed", "retries", "dropped", "peak", "channels"],
      name ∈ txNames ∧ name ∈ ["accepted", "completed", "retries", "dropped", "peak", "channels",
        "grants", "sleeps"] := by decide
  obtain ⟨htx, hprinted⟩ := hlisted name hname
  exact Except.ok.inj ((hcounted name htx).symm.trans (hothers name hprinted))

/-- What the host counts of the line of a server that passed. -/
theorem rx_counted {rx : List Char} {found : Counts} (hpassed : l.server.failed = false)
    (hheard : Heard (serverReport l.server) rx) (hfound : counters u rx rxNames = .ok found) :
    found.of "duplicates" ≤ (UInt32.ofNat l.server.duplicateAcks).toNat ∧
    found.of "suppressed" = 1 := by
  rw [serverReport_eq] at hheard
  obtain ⟨noise, later, hnoise, htext⟩ := hheard
  have hhead : '\r' ∉ l.server.head ∧ '=' ∉ l.server.head := by
    unfold Server.head
    split <;> decide
  rw [shown_line server_names hhead.1 (.inr rfl)] at htext
  have hnoise' : '=' ∉ noise ++ l.server.head := List.not_mem_append hnoise hhead.2
  have hcounted := counters_ok hfound
  have hcounts : l.server.counts =
      ([("completed", 64), ("drops", 8), ("suppressed", 1), ("channels", 4), ("invalid", 0)],
      ("duplicates", (UInt32.ofNat l.server.duplicateAcks).toNat)) := by
    rw [Server.counts, if_neg (by simp [hpassed])]
  have hnames := @server_names l
  rw [hcounts] at htext hnames
  generalize (UInt32.ofNat l.server.duplicateAcks).toNat = duplicates at htext hnames ⊢
  obtain ⟨hduplicates, hothers⟩ :=
    counter_cut hnames (by simp) hnoise' htext (hcounted "duplicates" (by decide))
  refine ⟨hduplicates, ?_⟩
  exact Except.ok.inj
    ((hcounted "suppressed" (by decide)).symm.trans (hothers "suppressed" (by simp)))

theorem word_toNat {n : Nat} (h : n ≤ 100000) : (UInt32.ofNat n).toNat = n := by
  simp
  omega

theorem Completed.passed (h : Completed l) : l.server.failed = false := by
  have hduplicates := Nat.one_le_iff_ne_zero.mp h.duplicates
  unfold Server.failed
  simp [h.served, h.drops, h.suppressed, h.followed, h.invalid, hduplicates]

/-- What a client prints when the transfer is complete. -/
def completedCounts (retries grants sleeps transferTicks : Nat) : Counts :=
  [("accepted", 64), ("completed", 64), ("retries", retries), ("dropped", 0), ("peak", 8),
    ("channels", 4), ("grants", grants), ("sleeps", sleeps), ("ticks", transferTicks)]

theorem Completed.counts (h : Completed l) :
    l.client.counts sleeps ++ [("ticks", transferTicks.toNat)] =
      completedCounts l.client.retries
        (UInt32.ofNat l.client.grants).toNat sleeps.toNat transferTicks.toNat := by
  have hretries : (UInt32.ofNat l.client.retries).toNat = l.client.retries := by
    have := h.retries
    exact word_toNat (by omega)
  rw [Client.counts, h.accepted, h.completed, h.dropped, h.peak, h.switches, hretries]
  rfl

theorem Completed.serverCounts (h : Completed l) (hduplicates : l.server.duplicateAcks ≤ 100000) :
    l.server.counts.1 ++ [l.server.counts.2] =
      [("completed", 64), ("drops", 8), ("suppressed", 1), ("channels", 4), ("invalid", 0),
        ("duplicates", l.server.duplicateAcks)] := by
  rw [Server.counts, if_neg (by simp [h.passed]), word_toNat hduplicates]
  rfl

theorem Completed.clientPassed (h : Completed l)
    (hsleeps : sleeps ≠ 0) : l.client.passed sleeps = true := by
  obtain ⟨hlow, hhigh⟩ := h.retries
  rw [h.drops, h.suppressed] at hlow
  have hretries : (UInt32.ofNat l.client.retries).toNat = l.client.retries := word_toNat (by omega)
  have hbounds : 8 ≤ UInt32.ofNat l.client.retries ∧ UInt32.ofNat l.client.retries ≤ 192 := by
    rw [UInt32.le_iff_toNat_le, UInt32.le_iff_toNat_le, hretries]
    exact ⟨Nat.le_trans (by decide) hlow, hhigh⟩
  rw [Client.passed, h.accepted, h.completed, h.dropped, h.peak, h.switches]
  simp [hbounds, hsleeps]

/-- A round the host accepts is one the client completed, and the numbers of the stage are
those of the two sides. -/
theorem retryRound_sound {report tx rx : List Char} {stage : RetryStage} (hcounted : Counted l)
    (hreport : clientReport l.client sleeps transferTicks = some report) (htx : Heard report tx)
    (hrx : Heard (serverReport l.server) rx) (hround : retryRound u tx rx = .ok stage) :
    l.client.completed = 64 ∧ l.server.committed = List.range 64 ∧
    stage.retries = l.client.retries ∧
      stage.suppressedAcks = l.server.suppressedAcks ∧ stage.grtcTicks ≤ transferTicks.toNat ∧
      stage.duplicateAcks ≤ l.server.duplicateAcks := by
  obtain ⟨_, -, hround⟩ := bind_ok.mp hround
  obtain ⟨_, -, hround⟩ := bind_ok.mp hround
  obtain ⟨txFound, htxFound, hround⟩ := bind_ok.mp hround
  obtain ⟨rxFound, hrxFound, hround⟩ := bind_ok.mp hround
  obtain ⟨_, hconserved, hround⟩ := bind_ok.mp hround
  obtain rfl := pure_ok.mp hround
  obtain ⟨hticks, hothers⟩ := tx_counted hreport htx htxFound
  have hdone : l.client.completed = 64 := by
    have hcompleted : txFound.of "completed" = 64 := by
      by_contra hne
      exact raiseIf_ok.mp hconserved (by simp [unconserved, hne])
    have hbound := hcounted.link.client.completed_le
    have hprinted : txFound.of "completed" = (UInt32.ofNat l.client.completed).toNat :=
      hothers "completed" (by decide)
    rwa [hprinted, word_toNat (by omega)] at hcompleted
  have hcompleted := completed_counts hcounted hdone
  obtain ⟨hduplicates, hsuppressed⟩ := rx_counted hcompleted.passed hrx hrxFound
  have hretries : txFound.of "retries" = (UInt32.ofNat l.client.retries).toNat :=
    hothers "retries" (by decide)
  have hattempts := hcounted.server.duplicates
  have hlimit := hcounted.server.attempts
  have hmost := hcompleted.retries
  rw [word_toNat (by omega)] at hduplicates hretries
  refine ⟨hdone, ?_, hretries, ?_, hticks, hduplicates⟩
  · rw [hcounted.link.server.committed, hcompleted.served]
  · rw [hcompleted.suppressed]
    exact hsuppressed

/-- What the host counts of the whole line of a client that completed. -/
theorem Completed.tx_all (h : Completed l) (hsleeps : sleeps ≠ 0) {report tx : List Char}
    (hreport : clientReport l.client sleeps transferTicks = some report)
    (htx : HeardAll report tx) :
    requireToken "NRFKIT_M7_RETRY PASS" tx = .ok () ∧
    counters u tx txNames = .ok (txNames.map fun name =>
      (name, (completedCounts l.client.retries
        (UInt32.ofNat l.client.grants).toNat sleeps.toNat transferTicks.toNat).of name)) := by
  rw [clientReport_eq] at hreport
  obtain rfl := Option.some.inj hreport
  obtain ⟨noise, later, hnoise, rfl⟩ := htx
  have hhead : l.client.head sleeps = "NRFKIT_M7_RETRY PASS".toList :=
    if_pos (h.clientPassed hsleeps)
  have hnames := @client_names l sleeps transferTicks
  rw [hhead]
  rw [h.counts] at hnames ⊢
  rw [shown_line hnames (by decide) (.inl rfl)]
  refine ⟨raiseIf_ok.mpr (not_not_intro ⟨noise, _, rfl⟩), counters_of fun name hname => ?_⟩
  refine counter_all hnames (List.not_mem_append hnoise (by decide)) ?_
  revert name
  show ∀ name ∈ txNames, name ∈ ["accepted", "completed", "retries", "dropped", "peak", "channels",
    "grants", "sleeps", "ticks"]
  decide

/-- The same of its server. -/
theorem Completed.rx_all (h : Completed l) (hduplicates : l.server.duplicateAcks ≤ 100000)
    {rx : List Char} (hrx : HeardAll (serverReport l.server) rx) :
    requireToken "NRFKIT_M7_PEER_RETRY PASS" rx = .ok () ∧
    counters u rx rxNames = .ok (rxNames.map fun name =>
      (name, Counts.of [("completed", 64), ("drops", 8), ("suppressed", 1), ("channels", 4),
        ("invalid", 0), ("duplicates", l.server.duplicateAcks)] name)) := by
  rw [serverReport_eq] at hrx
  obtain ⟨noise, later, hnoise, rfl⟩ := hrx
  have hhead : l.server.head = "NRFKIT_M7_PEER_RETRY PASS".toList := if_neg (by simp [h.passed])
  have hnames := @server_names l
  rw [hhead]
  rw [h.serverCounts hduplicates] at hnames ⊢
  rw [shown_line hnames (by decide) (.inr rfl)]
  refine ⟨raiseIf_ok.mpr (not_not_intro ⟨noise, _, rfl⟩), counters_of fun name hname => ?_⟩
  refine counter_all hnames (List.not_mem_append hnoise (by decide)) ?_
  revert name
  show ∀ name ∈ rxNames,
    name ∈ ["completed", "drops", "suppressed", "channels", "invalid", "duplicates"]
  decide

/-- A completed transfer is accepted where both lines were read as a whole. -/
theorem Completed.round_ok (h : Completed l) (hduplicates : l.server.duplicateAcks ≤ 100000)
    (hsleeps : sleeps ≠ 0) {report tx rx : List Char}
    (hreport : clientReport l.client sleeps transferTicks = some report) (htx : HeardAll report tx)
    (hrx : HeardAll (serverReport l.server) rx) :
    retryRound u tx rx = .ok ⟨transferTicks.toNat, l.client.retries, l.server.suppressedAcks,
      l.server.duplicateAcks⟩ := by
  obtain ⟨htxToken, htxFound⟩ := h.tx_all hsleeps hreport htx
  obtain ⟨hrxToken, hrxFound⟩ := h.rx_all hduplicates hrx
  refine bind_ok.mpr ⟨(), htxToken,
    bind_ok.mpr ⟨(), hrxToken, bind_ok.mpr ⟨_, htxFound, bind_ok.mpr ⟨_, hrxFound, ?_⟩⟩⟩⟩
  have hmost := h.retries
  rw [h.drops, h.suppressed] at hmost
  have hacked := h.duplicates
  refine bind_ok.mpr ⟨(), raiseIf_ok.mpr ?_, pure_ok.mpr ?_⟩
  · simp [unconserved, txNames, rxNames, completedCounts, Counts.of, List.lookup_cons]
    omega
  · rw [h.suppressed]
    rfl

/-- **What the host accepts.** The client's line fits its array whatever it counted. Whatever
was lost on the air, and wherever the consoles were cut, a round the host accepts is one in
which the client completed all packets and the server committed each once, and the retries and
suppressed ACKs of the stage are theirs; and every completed run is accepted where both lines
were read as a whole. -/
theorem retry_accepted (u : Unicode) (slots : List Slot) (sleeps transferTicks : UInt32) :
    let l := Link.initial.run slots
    ∃ report, clientReport l.client sleeps transferTicks = some report ∧
      (∀ tx rx stage, Heard report tx → Heard (serverReport l.server) rx →
        retryRound u tx rx = .ok stage →
        l.client.completed = 64 ∧ l.server.committed = List.range 64 ∧
        stage.retries = l.client.retries ∧
          stage.suppressedAcks = l.server.suppressedAcks ∧ stage.grtcTicks ≤ transferTicks.toNat ∧
          stage.duplicateAcks ≤ l.server.duplicateAcks) ∧
      (sleeps ≠ 0 → l.client.completed = 64 → ∀ tx rx, HeardAll report tx →
        HeardAll (serverReport l.server) rx →
        retryRound u tx rx = .ok ⟨transferTicks.toNat, l.client.retries, l.server.suppressedAcks,
          l.server.duplicateAcks⟩) := by
  intro l
  have hcounted : Counted l := counted_run counted_initial
  have hreport := clientReport_eq l.client sleeps transferTicks
  refine ⟨_, hreport, fun tx rx stage htx hrx hround =>
    retryRound_sound hcounted hreport htx hrx hround, fun hsleeps hdone tx rx htx hrx => ?_⟩
  have hattempts := hcounted.server.duplicates
  have hlimit := hcounted.server.attempts
  exact (completed_counts hcounted hdone).round_ok (by omega) hsleeps hreport htx hrx

end

/-- Nothing is lost, and the host accepts it. -/
theorem retry_accepted_lossless (u : Unicode) :
    ∃ report, clientReport (Link.initial.run (List.replicate 73 (.grant .nothing))).client 1
      5000 = some report ∧
      retryRound u (shown "boot ".toList report [])
        (shown [] (serverReport (Link.initial.run (List.replicate 73 (.grant .nothing))).server)
          []) = .ok ⟨5000, 9, 1, 1⟩ := by
  obtain ⟨report, hreport, -, haccepted⟩ :=
    retry_accepted u (List.replicate 73 (.grant .nothing)) 1 5000
  refine ⟨report, hreport, ?_⟩
  have hrun : (Link.initial.run (List.replicate 73 (.grant .nothing))).client.completed = 64 := by
    decide +kernel
  have hretries : (Link.initial.run (List.replicate 73 (.grant .nothing))).client.retries = 9 := by
    decide +kernel
  have hserver :
      (Link.initial.run (List.replicate 73 (.grant .nothing))).server.suppressedAcks = 1 ∧
      (Link.initial.run (List.replicate 73 (.grant .nothing))).server.duplicateAcks = 1 := by
        decide +kernel
  have hstage :=
    haccepted (by decide) hrun _ _ ⟨"boot ".toList, [], by decide, rfl⟩ ⟨[], [], by decide, rfl⟩
  rw [hretries, hserver.1, hserver.2] at hstage
  exact hstage

end NrfKit.RetryLink
