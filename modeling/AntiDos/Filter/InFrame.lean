import AntiDos.Filter.ParserCalls

/-!
# Parsing stays inside the frame

A read outside the frame and a use of a pointer that no parser has set are faults of the program,
and it has none. Its cursor is handed from parser to parser and only moves towards the end of the
frame; a parser that fails leaves it at a place inside the frame.
-/

namespace AntiDos

open Bytes Faulting Logging

variable {f : List UInt8} {nh : HdrCursor} {steps steps' : List FilterStep}

/-- The cursor stays at `nh` or goes on to `nh'`, but not behind the end of the frame. -/
def Moves (f : List UInt8) (nh nh' : HdrCursor) : Prop := nh.pos ≤ nh'.pos ∧ nh'.pos ≤ f.length

/-- Each parser is called on the cursor that the one before it left, does what it does on that
cursor, and moves it forward inside the frame. -/
def Forward (f : List UInt8) : HdrCursor → List FilterStep → Prop
  | _, [] => True
  | nh, .parse c :: steps =>
      c.nh = nh ∧ c.parser.parse f nh = .ok c.parsed ∧ Moves f nh c.parsed.nh ∧
        Forward f c.parsed.nh steps
  | nh, .fill _ :: steps => Forward f nh steps

def lastCursor : HdrCursor → List FilterStep → HdrCursor
  | nh, [] => nh
  | _, .parse c :: steps => lastCursor c.parsed.nh steps
  | nh, .fill _ :: steps => lastCursor nh steps

theorem forward_append :
    Forward f nh (steps ++ steps') ↔
      Forward f nh steps ∧ Forward f (lastCursor nh steps) steps' := by
  induction steps generalizing nh with
  | nil => simp [Forward, lastCursor]
  | cons step steps ih =>
      cases step with
      | parse c => simp [Forward, lastCursor, ih, and_assoc]
      | fill m => simp [Forward, lastCursor, ih]

/-! ## One call -/

theorem parseEthhdr_moves {p : Parsed} (hnh : nh.pos ≤ f.length) (h : parseEthhdr f nh = .ok p) :
    Moves f nh p.nh := by
  unfold parseEthhdr at h
  dsimp only at h
  split at h
  · obtain rfl := Except.ok.inj h
    exact ⟨le_rfl, hnh⟩
  · rename_i hfits
    obtain ⟨w, -, hp⟩ := bind_eq_ok_iff.mp h
    obtain rfl := Except.ok.inj hp
    exact ⟨Nat.le_add_right _ _, Nat.not_lt.mp hfits⟩

theorem parseIphdr_moves {p : Parsed} (hnh : nh.pos ≤ f.length) (h : parseIphdr f nh = .ok p) :
    Moves f nh p.nh := by
  unfold parseIphdr at h
  dsimp only at h
  split at h
  · obtain rfl := Except.ok.inj h
    exact ⟨le_rfl, hnh⟩
  obtain ⟨b, -, hp⟩ := bind_eq_ok_iff.mp h
  split at hp
  · obtain rfl := Except.ok.inj hp
    exact ⟨le_rfl, hnh⟩
  split at hp
  · obtain rfl := Except.ok.inj hp
    exact ⟨le_rfl, hnh⟩
  · rename_i hfits
    obtain ⟨w, -, hp⟩ := bind_eq_ok_iff.mp hp
    obtain rfl := Except.ok.inj hp
    exact ⟨Nat.le_add_right _ _, Nat.not_lt.mp hfits⟩

theorem parseIcmphdr_moves {p : Parsed} (hnh : nh.pos ≤ f.length)
    (h : parseIcmphdr f nh = .ok p) : Moves f nh p.nh := by
  unfold parseIcmphdr at h
  dsimp only at h
  split at h
  · obtain rfl := Except.ok.inj h
    exact ⟨le_rfl, hnh⟩
  · rename_i hfits
    obtain ⟨w, -, hp⟩ := bind_eq_ok_iff.mp h
    obtain rfl := Except.ok.inj hp
    exact ⟨Nat.le_add_right _ _, Nat.not_lt.mp hfits⟩

/-- A UDP header with a bad length moves the cursor too. -/
theorem parseUdphdr_moves {p : Parsed} (hnh : nh.pos ≤ f.length) (h : parseUdphdr f nh = .ok p) :
    Moves f nh p.nh := by
  unfold parseUdphdr at h
  dsimp only at h
  split at h
  · obtain rfl := Except.ok.inj h
    exact ⟨le_rfl, hnh⟩
  · rename_i hfits
    obtain ⟨w, -, hp⟩ := bind_eq_ok_iff.mp h
    have hcursor : p.nh = ⟨nh.pos + sizeofUdphdr⟩ := by
      split at hp
      · exact congrArg Parsed.nh (Except.ok.inj hp).symm
      · exact congrArg Parsed.nh (Except.ok.inj hp).symm
    rw [hcursor]
    exact ⟨Nat.le_add_right _ _, Nat.not_lt.mp hfits⟩

theorem parseTcphdr_moves {p : Parsed} (hnh : nh.pos ≤ f.length) (h : parseTcphdr f nh = .ok p) :
    Moves f nh p.nh := by
  unfold parseTcphdr at h
  dsimp only at h
  split at h
  · obtain rfl := Except.ok.inj h
    exact ⟨le_rfl, hnh⟩
  obtain ⟨b, -, hp⟩ := bind_eq_ok_iff.mp h
  split at hp
  · obtain rfl := Except.ok.inj hp
    exact ⟨le_rfl, hnh⟩
  split at hp
  · obtain rfl := Except.ok.inj hp
    exact ⟨le_rfl, hnh⟩
  · rename_i hfits
    obtain rfl := Except.ok.inj hp
    exact ⟨Nat.le_add_right _ _, Nat.not_lt.mp hfits⟩

theorem HeaderParser.moves {parser : HeaderParser} {p : Parsed} (hnh : nh.pos ≤ f.length)
    (h : parser.parse f nh = .ok p) : Moves f nh p.nh := by
  cases parser with
  | ethhdr => exact parseEthhdr_moves hnh h
  | iphdr => exact parseIphdr_moves hnh h
  | icmphdr => exact parseIcmphdr_moves hnh h
  | udphdr => exact parseUdphdr_moves hnh h
  | tcphdr => exact parseTcphdr_moves hnh h

theorem Forward.of_call {parser : HeaderParser} {p : Parsed} (hnh : nh.pos ≤ f.length)
    (hp : parser.parse f nh = .ok p) (hrest : p.nh.pos ≤ f.length → Forward f p.nh steps) :
    Forward f nh (.parse ⟨parser, nh, p⟩ :: steps) :=
  ⟨rfl, hp, HeaderParser.moves hnh hp, hrest (HeaderParser.moves hnh hp).2⟩

/-! ## The program -/

theorem forward_fillSteps (f : List UInt8) (nh : HdrCursor) : Forward f nh (fillSteps f) := by
  unfold fillSteps
  split
  · split
    · split
      · trivial
      · trivial
    · trivial
  · trivial

theorem forward_transportCall (hnh : transportOffset f ≤ f.length) :
    Forward f ⟨transportOffset f⟩ (transportCall f) := by
  unfold transportCall
  split
  · exact Forward.of_call hnh (parseTcphdr_eq f) fun _ ↦ trivial
  split
  · exact Forward.of_call hnh (parseUdphdr_parsed f) fun _ ↦ trivial
  split
  · exact Forward.of_call hnh (parseIcmphdr_parsed f) fun _ ↦ trivial
  · trivial

theorem forward_filterSteps (f : List UInt8) (whiteList blackList : Finset UInt32) :
    Forward f ⟨0⟩ (filterSteps f whiteList blackList) := by
  unfold filterSteps
  refine Forward.of_call (Nat.zero_le _) (parseEthhdr_eq f) fun hfourteen ↦ ?_
  split
  · trivial
  rename_i hgo
  have hlen : 14 ≤ f.length := Nat.not_lt.mp fun hshort ↦ hgo (Or.inl hshort)
  rw [ethParsed_of_le hlen] at hfourteen ⊢
  refine Forward.of_call hfourteen (parseIphdr_eq f) fun hoffset ↦ ?_
  split
  · trivial
  rename_i hgo
  have h : Ipv4Valid f := not_not.mp fun hbad ↦ hgo (Or.inl hbad)
  rw [ipParsed_of_valid h] at hoffset ⊢
  exact forward_append.mpr ⟨forward_transportCall hoffset, forward_fillSteps _ _⟩

/-- On every frame the program ends without a read outside the frame and without a use of a pointer
that is not set, and its cursor moves forward inside the frame. -/
theorem parsing_stays_inside (k : FilterState) (f : List UInt8) :
    ∃ r steps, xdpParserFunc k f = .ok r ∧ (xdpParserFuncSteps k f).run [] = .ok (r, steps) ∧
      Forward f ⟨0⟩ steps := by
  obtain ⟨r, hr, hrun⟩ := xdpParserFuncSteps_run k f
  exact ⟨r, _, hr, hrun, forward_filterSteps f k.whiteList k.blackList⟩

end AntiDos
