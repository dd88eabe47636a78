import AntiDos.Filter.Verdict
import AntiDos.Trace.TraceRead

/-!
# The messages of the filter

The filter and `trace_read` share nothing but the text of the messages. Each message has an action,
the two addresses as decimal numbers, and a reason behind a label of its own. Here `trace_read` is
shown to take every message of the filter apart as it was meant, with whatever the trace pipe puts
in front of it.
-/

namespace AntiDos

open Faulting Inet Scanf Words

/-- The line that a `bpf_printk` puts into the trace pipe. -/
def Printk.text (k : Printk) : List Char := printfU k.fmt.toList [k.src.toNat, k.dst.toNat]

instance (tok : List Char) : Decidable (Plain tok) :=
  decidable_of_iff (startsLike 5 "action:" tok = false ∧ startsLike 4 "src:" tok = false ∧
      startsLike 4 "dst:" tok = false ∧ startsLike 6 "reason:" tok = false)
    ⟨fun h ↦ ⟨h.1, h.2.1, h.2.2.1, h.2.2.2⟩, fun h ↦ ⟨h.action, h.src, h.dst, h.reason⟩⟩

/-- A message whose parts are told apart by the tokens that `trace_read` looks for. -/
structure Message where
  action : List Char
  label : List Char
  reason : List Char
  action_ne_nil : action ≠ [] := by decide
  action_spaceless : action.any isSpace = false := by decide
  comma_not_mem : ',' ∉ action := by decide
  action_fits : action.length < actionBytes := by decide
  action_plain : Plain action := by decide
  label_ne_nil : label ≠ [] := by decide
  space_not_mem : ' ' ∉ label := by decide
  label_action : startsLike 5 "action:" label = false := by decide
  label_src : startsLike 4 "src:" label = false := by decide
  label_dst : startsLike 4 "dst:" label = false := by decide
  label_reason : startsLike 6 "reason:" label = true := by decide
  reason_plain : ∀ t ∈ words (· = ' ') (reason ++ ['\n']), Plain t := by decide
  nul_not_mem : '\x00' ∉ action ++ (label ++ reason) := by decide
  percent_not_mem : '%' ∉ action ++ (label ++ reason) := by decide

namespace Message

variable (m : Message) (src dst : UInt32)

def reasonText : List Char := m.label ++ ' ' :: (m.reason ++ ['\n'])

/-- A field with an address, and what follows it. -/
def addrText (label : String) (addr : UInt32) (rest : List Char) : List Char :=
  label.toList ++ ' ' :: (decimal addr.toNat ++ ',' :: ' ' :: rest)

def text : List Char :=
  "action:".toList ++ ' ' :: (m.action ++ ',' :: ' ' ::
    addrText "src:" src (addrText "dst:" dst m.reasonText))

def fmt : List Char :=
  ("action: ".toList ++ (m.action ++ ", src: ".toList)) ++ '%' :: 'u' ::
    (", dst: ".toList ++ '%' :: 'u' :: (", ".toList ++ m.reasonText))

/-- What is meant to be printed. The reason brings its line end along. -/
def printed : List Char :=
  "action: ".toList ++ m.action ++ " ".toList ++
    ("src: ".toList ++ inetNtop src ++ " ".toList) ++
    ("dst: ".toList ++ inetNtop dst ++ " ".toList) ++
    ("reason: ".toList ++ (m.reason ++ ['\n']) ++ " ".toList) ++ "\n".toList

theorem printfU_fmt : printfU m.fmt [src.toNat, dst.toNat] = m.text src dst := by
  have hpercent := m.percent_not_mem
  simp only [List.mem_append, not_or] at hpercent
  obtain ⟨haction, hlabel, hreason⟩ := hpercent
  have hhead : '%' ∉ "action: ".toList ++ (m.action ++ ", src: ".toList) := by
    simp [haction]
  have hrest : '%' ∉ ", ".toList ++ m.reasonText := by
    simp [reasonText, hlabel, hreason]
  unfold fmt text
  rw [printfU_literal hhead, printfU_conversion, printfU_literal (by decide),
    printfU_conversion, ← List.append_nil (", ".toList ++ _), printfU_literal hrest, printfU,
    show "action: ".toList = "action:".toList ++ [' '] by decide,
    show ", src: ".toList = ',' :: ' ' :: ("src:".toList ++ [' ']) by decide,
    show ", dst: ".toList = ',' :: ' ' :: ("dst:".toList ++ [' ']) by decide,
    show ", ".toList = [',', ' '] by decide, addrText, addrText]
  simp only [List.append_assoc, List.cons_append, List.nil_append, List.append_nil]

end Message

inductive Notice
  | whiteList
  | blackList
  | fragmentedIcmp
  | largeIcmp
  | fragmentedTcp
  deriving DecidableEq

namespace Notice

def fmt : Notice → String
  | whiteList => msgWhiteList
  | blackList => msgBlackList
  | fragmentedIcmp => msgFragmentedIcmp
  | largeIcmp => msgLargeIcmp
  | fragmentedTcp => msgFragmentedTcp

def message : Notice → Message
  | whiteList =>
      { action := "PASS".toList, label := "reason_1:".toList, reason := "IP in WHITE LIST".toList }
  | blackList =>
      { action := "DROP".toList, label := "reason_1:".toList, reason := "IP in BLACK LIST".toList }
  | fragmentedIcmp =>
      { action := "DROP".toList, label := "reason_id:".toList,
        reason := "Fragmented ICMP Packet".toList }
  | largeIcmp =>
      { action := "DROP".toList, label := "reason_id:".toList,
        reason := "Large ICMP Packet".toList }
  | fragmentedTcp =>
      { action := "DROP".toList, label := "reason_id:".toList,
        reason := "Fragmented TCP Packet".toList }

theorem toList_fmt (n : Notice) : n.fmt.toList = n.message.fmt := by
  cases n <;> decide

/-- The formats of the filter spell the messages. -/
theorem text_eq (n : Notice) (src dst : UInt32) :
    Printk.text ⟨n.fmt, src, dst⟩ = n.message.text src dst := by
  rw [Printk.text, n.toList_fmt, n.message.printfU_fmt]

end Notice

/-! ## The tokens of a message -/

variable {delim : Char} {tok : List Char} {s : TraceState}

theorem strtokR_append (hne : tok ≠ []) (htok : delim ∉ tok) (rest : List Char) :
    strtokR delim (tok ++ delim :: rest) = (some tok, rest) := by
  have hinside : ∀ c ∈ tok, decide (c = delim) = false := by
    intro c hc
    rw [decide_eq_false_iff_not]
    rintro rfl
    exact htok hc
  have hword : IsWord (fun c ↦ decide (c = delim)) tok := ⟨hne, hinside⟩
  have hrest : Stops (fun c ↦ !decide (c = delim)) (delim :: rest) := stops_cons.mpr (by simp)
  have hgap : ∀ c ∈ ([] : List Char), decide (c = delim) = true := fun c hc ↦ nomatch hc
  exact strtokR_of_nextWord (nextWord_append hgap hword hrest)

theorem traceLoop_token (hne : tok ≠ []) (htok : ' ' ∉ tok) (rest : List Char) :
    traceLoop (tok ++ ' ' :: rest) s = traceToken tok rest s >>= fun p ↦ traceLoop p.1 p.2 :=
  traceLoop_of_some (strtokR_append hne htok rest)

theorem plain_of_isDigit {c : Char} (hc : c.isDigit = true) (cs : List Char) : Plain (c :: cs) := by
  have ha : c ≠ 'a' := isDigit_ne hc (by decide)
  have hs : c ≠ 's' := isDigit_ne hc (by decide)
  have hd : c ≠ 'd' := isDigit_ne hc (by decide)
  have hr : c ≠ 'r' := isDigit_ne hc (by decide)
  constructor
  · simp [startsLike, ha]
  · simp [startsLike, hs]
  · simp [startsLike, hd]
  · simp [startsLike, hr]

theorem plain_decimal (n : ℕ) (rest : List Char) : Plain (decimal n ++ rest) := by
  obtain ⟨c, cs, hcs⟩ := List.exists_cons_of_ne_nil (decimal_ne_nil n)
  have hc : c.isDigit = true := isDigit_of_mem_decimal (hcs ▸ List.mem_cons_self)
  rw [hcs]
  exact plain_of_isDigit hc (cs ++ rest)

theorem printIpAddr_decimal (key : String) (addr : UInt32) :
    printIpAddr key (decimal addr.toNat ++ [',']) =
      key.toList ++ ": ".toList ++ inetNtop addr ++ " ".toList := by
  rw [printIpAddr, scanNumeral_decimal _ (stops_cons.mpr (by decide))]
  dsimp only
  rw [toUInt32_decimal]

theorem strtokR_decimal (n : ℕ) (rest : List Char) :
    strtokR ' ' (decimal n ++ ',' :: ' ' :: rest) = (some (decimal n ++ [',']), rest) := by
  have hassoc : decimal n ++ ',' :: ' ' :: rest = (decimal n ++ [',']) ++ ' ' :: rest := by simp
  rw [hassoc]
  have hspace : ' ' ∉ decimal n := fun h ↦ absurd (isDigit_of_mem_decimal h) (by decide)
  exact strtokR_append (by simp) (by simp [hspace]) rest

/-! ## The turns of the loop -/

theorem readAddr_decimal (label key : String) (hlabel : startsLike 4 label label.toList = true)
    (addr : UInt32) (rest : List Char) (s : TraceState) :
    readAddr label key (label.toList, decimal addr.toNat ++ ',' :: ' ' :: rest, s) =
      .ok (decimal addr.toNat ++ [','], rest,
        s.print (key.toList ++ ": ".toList ++ inetNtop addr ++ " ".toList)) := by
  rw [readAddr, if_pos hlabel, strtokR_decimal]
  dsimp only
  rw [printIpAddr_decimal]

theorem traceLoop_src (addr : UInt32) (rest : List Char) (s : TraceState) :
    traceLoop (Message.addrText "src:" addr rest) s =
      traceLoop rest (s.print ("src: ".toList ++ inetNtop addr ++ " ".toList)) := by
  have hplain := plain_decimal addr.toNat [',']
  rw [Message.addrText, traceLoop_token (by decide) (by decide), traceToken,
    readAction_of_not (by decide), ok_bind, readAddr_decimal "src:" "src" (by decide), ok_bind,
    readAddr_of_not hplain.dst, ok_bind, readReason_of_not hplain.reason, ok_bind]
  rfl

theorem traceLoop_dst (addr : UInt32) (rest : List Char) (s : TraceState) :
    traceLoop (Message.addrText "dst:" addr rest) s =
      traceLoop rest (s.print ("dst: ".toList ++ inetNtop addr ++ " ".toList)) := by
  have hplain := plain_decimal addr.toNat [',']
  rw [Message.addrText, traceLoop_token (by decide) (by decide), traceToken,
    readAction_of_not (by decide), ok_bind, readAddr_of_not (by decide), ok_bind,
    readAddr_decimal "dst:" "dst" (by decide), ok_bind, readReason_of_not hplain.reason, ok_bind]
  rfl

namespace Message

variable (m : Message)

theorem readAction_eq (rest : List Char) (s : TraceState) :
    readAction ("action:".toList, m.action ++ ',' :: rest, s) =
      .ok (m.action, rest,
        { s with action := m.action }.print ("action: ".toList ++ m.action ++ " ".toList)) := by
  have htok : strtokR ',' (m.action ++ ',' :: rest) = (some m.action, rest) :=
    strtokR_append m.action_ne_nil m.comma_not_mem rest
  have hword : scanWord m.action = some (m.action, []) := by
    have hin : IsWord isSpace m.action :=
      ⟨m.action_ne_nil, by simpa using List.any_eq_false.mp m.action_spaceless⟩
    exact scanWord_eq_some_iff.mpr ⟨[], by simp [Blank], hin, stops_nil, by simp⟩
  rw [readAction, if_pos (by decide), htok]
  dsimp only
  rw [hword]
  dsimp only
  rw [if_pos m.action_fits]

theorem traceLoop_action (rest : List Char) (s : TraceState) :
    traceLoop ("action:".toList ++ ' ' :: (m.action ++ ',' :: rest)) s =
      traceLoop rest ({ s with action := m.action }.print
        ("action: ".toList ++ m.action ++ " ".toList)) := by
  rw [traceLoop_token (by decide) (by decide), traceToken, m.readAction_eq, ok_bind,
    readAddr_of_not m.action_plain.src, ok_bind, readAddr_of_not m.action_plain.dst, ok_bind,
    readReason_of_not m.action_plain.reason, ok_bind]

theorem traceLoop_reason (s : TraceState) :
    traceLoop m.reasonText s =
      .ok (s.print ("reason: ".toList ++ (m.reason ++ ['\n']) ++ " ".toList)) := by
  rw [reasonText, traceLoop_token m.label_ne_nil m.space_not_mem, traceToken,
    readAction_of_not m.label_action, ok_bind, readAddr_of_not m.label_src, ok_bind,
    readAddr_of_not m.label_dst, ok_bind, readReason, if_pos m.label_reason, ok_bind]
  exact traceLoop_plain _ _ m.reason_plain

theorem traceLoop_text (src dst : UInt32) (s : TraceState) :
    (traceLoop (m.text src dst) s >>= fun s ↦ .ok (s.print "\n".toList)) =
      .ok ⟨m.action, s.out ++ m.printed src dst⟩ := by
  unfold text printed
  rw [traceLoop_action, traceLoop_cons_space, traceLoop_src, traceLoop_dst,
    m.traceLoop_reason, ok_bind]
  simp only [TraceState.print, List.append_assoc]

theorem nul_not_mem_decimal (n : ℕ) : '\x00' ∉ decimal n :=
  fun h ↦ absurd (isDigit_of_mem_decimal h) (by decide)

theorem nul_not_mem_text (src dst : UInt32) : '\x00' ∉ m.text src dst := by
  have hnul := m.nul_not_mem
  simp only [List.mem_append, not_or] at hnul
  obtain ⟨haction, hlabel, hreason⟩ := hnul
  have hblank : ∀ t : List Char, '\x00' ∉ t → '\x00' ∉ ' ' :: t := by simp
  have haddr : ∀ (label : String) (addr : UInt32) (t : List Char), '\x00' ∉ label.toList →
      '\x00' ∉ t → '\x00' ∉ addrText label addr t := by
    intro label addr t hl ht
    simp [addrText, hl, ht, nul_not_mem_decimal]
  have htail : '\x00' ∉ m.reasonText := by
    simp [reasonText, hlabel, hreason]
  have hdst := haddr "dst:" dst _ (by decide) htail
  have hsrc := haddr "src:" src _ (by decide) hdst
  unfold text
  rw [List.mem_append, not_or]
  exact ⟨by decide, by simpa [haction] using hsrc⟩

theorem traceLine_text {pre : List Char} (hpre : LinePrefix pre) (src dst : UInt32)
    (s : TraceState) :
    traceLine (pre ++ m.text src dst) s = .ok ⟨m.action, s.out ++ m.printed src dst⟩ := by
  have hnul : '\x00' ∉ pre ++ m.text src dst :=
    fun h ↦ (List.mem_append.mp h).elim hpre.nul_not_mem (m.nul_not_mem_text src dst)
  rw [traceLine, cString_eq hnul, traceLoop_prefix pre _ s hpre.plain hpre.blank]
  exact m.traceLoop_text src dst s

end Message

/-! ## The filter and `trace_read` -/

theorem traceRead_cons (line : List Char) (lines : List (List Char)) (s : TraceState) :
    traceRead (line :: lines) s = traceLine line s >>= traceRead lines :=
  List.foldlM_cons

theorem traceRead_nil (s : TraceState) : traceRead [] s = .ok s := rfl

theorem traceLine_newline (s : TraceState) :
    traceLine "\n".toList s = .ok (s.print "\n".toList) := by
  rw [traceLine, cString_eq (by decide), traceLoop_plain _ s (by decide), ok_bind]

/-- What the filter writes is read back: the action, the two addresses as dotted quads and the
reason, each once and in this order. A second line end only adds an empty line. -/
theorem trace_round_trip {pre : List Char} (hpre : LinePrefix pre) (n : Notice) (src dst : UInt32)
    (s : TraceState) :
    traceRead [pre ++ Printk.text ⟨n.fmt, src, dst⟩] s =
        .ok ⟨n.message.action, s.out ++ n.message.printed src dst⟩ ∧
      traceRead [pre ++ Printk.text ⟨n.fmt, src, dst⟩, "\n".toList] s =
        .ok ⟨n.message.action, s.out ++ n.message.printed src dst ++ "\n".toList⟩ := by
  have hline := n.message.traceLine_text hpre src dst s
  rw [← n.text_eq] at hline
  constructor
  · rw [traceRead_cons, hline, ok_bind, traceRead_nil]
  · rw [traceRead_cons, hline, ok_bind, traceRead_cons, traceLine_newline, ok_bind, traceRead_nil]
    rfl

theorem trace_round_trip_idle : traceRead
    ["<idle>-0 [001] ..s. 12.5: bpf_trace_printk: ".toList ++
      Printk.text ⟨Notice.largeIcmp.fmt, 0x0100000a, 0x0200000a⟩] ⟨[], []⟩ =
    .ok ⟨"DROP".toList, "action: DROP src: 10.0.0.1 dst: 10.0.0.2 reason: ".toList ++
      "Large ICMP Packet\n \n".toList⟩ := by
  have hlast : "<idle>-0 [001] ..s. 12.5: bpf_trace_printk: ".toList.getLast? = some ' ' := by
    decide
  have hpre : LinePrefix "<idle>-0 [001] ..s. 12.5: bpf_trace_printk: ".toList :=
    ⟨by decide, by decide, fun c hc ↦ (Option.some.inj (hlast.symm.trans hc)).symm⟩
  have hread := (trace_round_trip hpre .largeIcmp 0x0100000a 0x0200000a ⟨[], []⟩).1
  have hprinted : Notice.largeIcmp.message.printed 0x0100000a 0x0200000a =
      "action: DROP src: 10.0.0.1 dst: 10.0.0.2 reason: ".toList ++
        "Large ICMP Packet\n \n".toList := by decide
  rw [hprinted] at hread
  exact hread

/-- A run of the pipe, each line with a prefix and a message of its own. -/
theorem traceRead_notices (lines : List (List Char × Notice × UInt32 × UInt32))
    (hpre : ∀ l ∈ lines, LinePrefix l.1) (s : TraceState) :
    ∃ action, traceRead (lines.map fun l ↦ l.1 ++ Printk.text ⟨l.2.1.fmt, l.2.2.1, l.2.2.2⟩) s =
      .ok ⟨action, s.out ++ lines.flatMap fun l ↦ l.2.1.message.printed l.2.2.1 l.2.2.2⟩ := by
  induction lines generalizing s with
  | nil => exact ⟨s.action, by rw [List.map_nil, traceRead_nil, List.flatMap_nil, List.append_nil]⟩
  | cons l lines ih =>
      have hline := l.2.1.message.traceLine_text (hpre l List.mem_cons_self) l.2.2.1 l.2.2.2 s
      rw [← l.2.1.text_eq] at hline
      obtain ⟨action, hrest⟩ := ih (fun l hl ↦ hpre l (List.mem_cons_of_mem _ hl))
        ⟨l.2.1.message.action, s.out ++ l.2.1.message.printed l.2.2.1 l.2.2.2⟩
      refine ⟨action, ?_⟩
      rw [List.map_cons, traceRead_cons, hline, ok_bind, hrest, List.flatMap_cons,
        List.append_assoc]

/-- The action that a message names is the one that the program returns. -/
def actionName (action : UInt32) : List Char :=
  if action = xdpPass then "PASS".toList else "DROP".toList

variable {f : List UInt8} {whiteList blackList : Finset UInt32} {k : Printk}

theorem mem_note {msg : String} (hk : k ∈ note f msg) : k = ⟨msg, sourceAddr f, destAddr f⟩ :=
  List.mem_singleton.mp hk

theorem inspectTransport_notice (hk : k ∈ (inspectTransport f).2) :
    ∃ n : Notice, k = ⟨n.fmt, sourceAddr f, destAddr f⟩ ∧
      n.message.action = actionName (inspectTransport f).1.action := by
  unfold inspectTransport at hk ⊢
  split_ifs at hk ⊢
  any_goals exact absurd hk List.not_mem_nil
  · exact ⟨.fragmentedTcp, mem_note hk, rfl⟩
  · exact ⟨.fragmentedIcmp, mem_note hk, rfl⟩
  · exact ⟨.largeIcmp, mem_note hk, rfl⟩

/-- Every line of the filter is one of the notices, with the addresses and the verdict of its
frame. -/
theorem inspect_notice (hk : k ∈ (inspect f whiteList blackList).2) :
    ∃ n : Notice, k = ⟨n.fmt, sourceAddr f, destAddr f⟩ ∧
      n.message.action = actionName (inspect f whiteList blackList).1.action := by
  unfold inspect at hk ⊢
  split_ifs at hk ⊢
  any_goals exact absurd hk List.not_mem_nil
  · exact ⟨.whiteList, mem_note hk, rfl⟩
  · exact ⟨.blackList, mem_note hk, rfl⟩
  · exact inspectTransport_notice hk

/-- The line that the filter writes about a frame shows the verdict on the frame and its two
addresses. -/
theorem traceLine_inspect {pre : List Char} (hpre : LinePrefix pre)
    (hk : k ∈ (inspect f whiteList blackList).2) (s : TraceState) :
    ∃ n : Notice, n.message.action = actionName (inspect f whiteList blackList).1.action ∧
      traceLine (pre ++ k.text) s = .ok ⟨n.message.action,
        s.out ++ n.message.printed (sourceAddr f) (destAddr f)⟩ := by
  obtain ⟨n, rfl, haction⟩ := inspect_notice hk
  refine ⟨n, haction, ?_⟩
  rw [n.text_eq, n.message.traceLine_text hpre]

end AntiDos
