import TecoQuant.BrokersFeedPacket

/-! The format of the live feed: a message is a row of frames whose header gives the exact length of their
response code. Decoding a message and encoding its packets undo each other. -/

namespace TecoQuant.Brokers

open Struct

/-! ### The format -/

/-- The documented fields of each response code, in the order of the bytes after the header. -/
def layout : Nat → List (String × Format)
  | 2 => [("last_price", .f), ("last_trade_epoch", .I)]
  | 4 => [("last_price", .f), ("last_quantity", .H), ("last_trade_epoch", .I), ("average_price", .f),
      ("volume", .I), ("total_sell_quantity", .I), ("total_buy_quantity", .I), ("day_open", .f),
      ("day_close", .f), ("day_high", .f), ("day_low", .f)]
  | 5 => [("open_interest", .I)]
  | 6 => [("previous_close", .f), ("previous_open_interest", .I)]
  | 8 => [("last_price", .f), ("last_quantity", .H), ("last_trade_epoch", .I), ("average_price", .f),
      ("volume", .I), ("total_sell_quantity", .I), ("total_buy_quantity", .I), ("open_interest", .I),
      ("highest_open_interest", .I), ("lowest_open_interest", .I), ("day_open", .f), ("day_close", .f),
      ("day_high", .f), ("day_low", .f)]
  | 50 => [("disconnect_code", .H)]
  | _ => []

/-- The fields of a depth level. -/
def levelLayout : List (String × Format) :=
  [("bid_quantity", .I), ("ask_quantity", .I), ("bid_orders", .H), ("ask_orders", .H), ("bid_price", .f),
    ("ask_price", .f)]

def headerLayout : List (String × Format) :=
  [("response_code", .B), ("message_length", .H), ("exchange_segment_code", .B), ("security_id", .I)]

/-- The length of a frame by its response code. -/
def frameLength : Nat → Option Nat
  | 2 => some 16
  | 4 => some 50
  | 5 => some 12
  | 6 => some 16
  | 7 => some 8
  | 8 => some 162
  | 50 => some 10
  | _ => none

/-- A well-formed frame. -/
structure Frame (frame : List UInt8) : Prop where
  header : 8 ≤ frame.length
  counted : (unpackFrom .H frame 1).raw = frame.length
  exact : frameLength (unpackFrom .B frame 0).raw = some frame.length

/-- The packet a frame stands for. -/
def framePacket (frame : List UInt8) : DhanFeedPacket where
  responseCode := (unpackFrom .B frame 0).raw
  messageLength := frame.length
  exchangeSegmentCode := (unpackFrom .B frame 3).raw
  securityId := toString (unpackFrom .I frame 4).raw
  fields := unpackRow (layout (unpackFrom .B frame 0).raw) frame 8
  depth := decodeDepth (unpackFrom .B frame 0).raw frame

def levelFields (level : DhanDepthLevel) : List (String × Value) :=
  [("bid_quantity", .int level.bidQuantity), ("ask_quantity", .int level.askQuantity),
    ("bid_orders", .int level.bidOrders), ("ask_orders", .int level.askOrders),
    ("bid_price", .float level.bidPrice), ("ask_price", .float level.askPrice)]

/-- The number a decimal text stands for. -/
def decimalNumber (text : String) : Nat := Nat.ofDigitChars 10 text.toList 0

def headerFields (packet : DhanFeedPacket) : List (String × Value) :=
  [("response_code", .int packet.responseCode), ("message_length", .int packet.messageLength),
    ("exchange_segment_code", .int packet.exchangeSegmentCode),
    ("security_id", .int (decimalNumber packet.securityId))]

def encodeLevels (levels : List DhanDepthLevel) : List UInt8 :=
  levels.flatMap fun level => packRow levelLayout (levelFields level)

/-- The frame of a packet. -/
def encodeFrame (packet : DhanFeedPacket) : List UInt8 :=
  packRow headerLayout (headerFields packet) ++
    (packRow (layout packet.responseCode) packet.fields ++ encodeLevels packet.depth)

def encodeFeedMessage (packets : List DhanFeedPacket) : List UInt8 := packets.flatMap encodeFrame

/-- A packet with the fields of its response code, all in range. -/
structure DhanFeedPacket.WellFormed (packet : DhanFeedPacket) : Prop where
  length : frameLength packet.responseCode = some packet.messageLength
  segment : packet.exchangeSegmentCode < 256
  security : ∃ n < 2 ^ 32, packet.securityId = toString n
  fields : FitsRow (layout packet.responseCode) packet.fields
  depth : packet.depth.length = if packet.responseCode = 8 then 5 else 0
  levels : ∀ level ∈ packet.depth, FitsRow levelLayout (levelFields level)

/-! ### Frames -/

theorem decodeFields_eq (responseCode : Nat) (packet : List UInt8) :
    decodeFields responseCode packet = unpackRow (layout responseCode) packet 8 := by
  fun_cases layout responseCode with
  | case7 h2 h4 h5 h6 h8 h50 =>
      unfold decodeFields
      split <;> first | contradiction | rfl
  | _ => rfl

/-- Except for a market status, the lengths are those the decoder checks. -/
theorem exactLength_eq {responseCode : Nat} (h : responseCode ≠ 7) :
    exactLength responseCode = frameLength responseCode := by
  unfold exactLength
  split <;> first | rfl | skip
  unfold frameLength
  split <;> first | contradiction | rfl

/-- The codes of the format, with what follows the header. -/
theorem frameLength_eq_some {responseCode length : Nat} (h : frameLength responseCode = some length) :
    responseCode < 256 ∧ length < 65536 ∧
      length = 8 + (rowWidth (layout responseCode) + if responseCode = 8 then 100 else 0) := by
  unfold frameLength at h
  split at h <;> cases h <;> decide

theorem decodeFeedPacket_frame {frame : List UInt8} (h : Frame frame) (hcode : (unpackFrom .B frame 0).raw ≠ 7) :
    decodeFeedPacket frame = .ok (framePacket frame) := by
  have hexact := (exactLength_eq hcode).trans h.exact
  unfold decodeFeedPacket header
  rw [if_neg (by have := h.header; omega)]
  dsimp only
  rw [if_neg (not_not.mpr h.counted), hexact]
  dsimp only
  rw [if_neg (not_not.mpr rfl), decodeFields_eq, h.counted]
  rfl

/-- A frame decodes to its packet. -/
theorem decodeMessagePacket_frame {frame : List UInt8} (h : Frame frame) :
    decodeMessagePacket (unpackFrom .B frame 0).raw (unpackFrom .H frame 1).raw frame = .ok (framePacket frame) := by
  unfold decodeMessagePacket
  split
  · rename_i hstatus
    have hlength : 8 = frame.length := by
      have hexact := h.exact
      rw [hstatus] at hexact
      exact Option.some.inj hexact
    rw [h.counted, if_neg (by omega)]
    unfold header framePacket decodeDepth
    rw [hstatus, ← hlength]
    rfl
  · rename_i hcode
    exact decodeFeedPacket_frame h hcode

/-- What decodes is a frame. -/
theorem frame_of_decode {frame : List UInt8} {packet : DhanFeedPacket} (hheader : 8 ≤ frame.length)
    (hcounted : (unpackFrom .H frame 1).raw = frame.length)
    (h : decodeMessagePacket (unpackFrom .B frame 0).raw (unpackFrom .H frame 1).raw frame = .ok packet) :
    Frame frame := by
  refine ⟨hheader, hcounted, ?_⟩
  unfold decodeMessagePacket at h
  split at h
  · rename_i hstatus
    rw [hstatus]
    split at h
    · cases h
    · rename_i hlength
      rw [← hcounted, not_not.mp hlength]
      rfl
  · rename_i hcode
    rw [← exactLength_eq hcode]
    unfold decodeFeedPacket header at h
    rw [if_neg (by omega)] at h
    dsimp only at h
    rw [if_neg (not_not.mpr hcounted)] at h
    split at h
    · cases h
    · rename_i expected hexpected
      split at h
      · cases h
      · rename_i hlength
        rw [hexpected, not_not.mp hlength]

theorem unpackFrom_append {format : Format} {frame rest : List UInt8} {offset : Nat}
    (h : offset + format.width ≤ frame.length) :
    unpackFrom format (frame ++ rest) offset = unpackFrom format frame offset := by
  have htake : frame = (frame ++ rest).take frame.length := (List.take_left ..).symm
  rw [unpackFrom, unpackFrom]
  congr 2
  conv_rhs => rw [htake, List.drop_take, List.take_take, Nat.min_eq_left (by omega)]

/-! ### Messages -/

/-- A leading frame decodes to its packet, and the rest is decoded after it. -/
theorem decodePackets_frame {frame : List UInt8} (h : Frame frame) (rest : List UInt8) :
    decodePackets (frame ++ rest) = (decodePackets rest).map (framePacket frame :: ·) := by
  have hheader := h.header
  have hcode : unpackFrom .B (frame ++ rest) 0 = unpackFrom .B frame 0 :=
    unpackFrom_append (by show 0 + 1 ≤ _; omega)
  have hlength : unpackFrom .H (frame ++ rest) 1 = unpackFrom .H frame 1 :=
    unpackFrom_append (by show 1 + 2 ≤ _; omega)
  have hcounted := h.counted
  conv_lhs => rw [decodePackets]
  rw [if_neg (by intro hnil; rw [List.append_eq_nil_iff] at hnil; simp [hnil.1] at hheader),
    if_neg (by rw [List.length_append]; omega)]
  dsimp only
  rw [hcode, hlength, hcounted, dif_neg (by rw [List.length_append]; omega), List.take_left, List.drop_left,
    ← hcounted, decodeMessagePacket_frame h]
  cases decodePackets rest <;> rfl

/-- The frames of a message decode to their packets, in order. -/
theorem decodePackets_flatten {frames : List (List UInt8)} (h : ∀ frame ∈ frames, Frame frame) :
    decodePackets frames.flatten = .ok (frames.map framePacket) := by
  induction frames with
  | nil => rw [List.flatten_nil, decodePackets, if_pos rfl, List.map_nil]
  | cons frame frames ih =>
      rw [List.flatten_cons, decodePackets_frame (h frame List.mem_cons_self),
        ih fun frame hframe => h frame (List.mem_cons_of_mem _ hframe)]
      rfl

/-- What the loop decodes is a row of frames. -/
theorem decodePackets_frames {message : List UInt8} {packets : List DhanFeedPacket}
    (h : decodePackets message = .ok packets) :
    ∃ frames : List (List UInt8), (∀ frame ∈ frames, Frame frame) ∧ frames.flatten = message ∧
      packets = frames.map framePacket := by
  induction message using decodePackets.induct generalizing packets with
  | case1 =>
      rw [decodePackets, if_pos rfl] at h
      exact ⟨[], by simp, rfl, (Except.ok.inj h).symm⟩
  | case2 message hne hshort =>
      rw [decodePackets, if_neg hne, if_pos hshort] at h
      cases h
  | case3 message hne hshort messageLength =>
      rename_i hinvalid
      rw [decodePackets, if_neg hne, if_neg hshort] at h
      dsimp only at h
      rw [dif_pos hinvalid] at h
      cases h
  | case4 message hne hshort messageLength hvalid =>
      rename_i ih
      rw [decodePackets, if_neg hne, if_neg hshort] at h
      dsimp only at h
      rw [dif_neg hvalid] at h
      obtain ⟨packet, hpacket, h⟩ := Except.bind_eq_ok.mp h
      obtain ⟨others, hothers, h⟩ := Except.bind_eq_ok.mp h
      obtain ⟨frames, hframes, hflatten, rfl⟩ := ih hothers
      have hlength : (message.take messageLength).length = messageLength := by
        rw [List.length_take]
        omega
      have hsplit : message.take messageLength ++ message.drop messageLength = message := List.take_append_drop _ _
      have hcode : unpackFrom .B message 0 = unpackFrom .B (message.take messageLength) 0 := by
        conv_lhs => rw [← hsplit]
        exact unpackFrom_append (by rw [hlength]; show 0 + 1 ≤ _; omega)
      have hcount : unpackFrom .H message 1 = unpackFrom .H (message.take messageLength) 1 := by
        conv_lhs => rw [← hsplit]
        exact unpackFrom_append (by rw [hlength]; show 1 + 2 ≤ _; omega)
      have hcounted : (unpackFrom .H (message.take messageLength) 1).raw = (message.take messageLength).length := by
        rw [← hcount, hlength]
      have hdecode : decodeMessagePacket (unpackFrom .B (message.take messageLength) 0).raw
          (unpackFrom .H (message.take messageLength) 1).raw (message.take messageLength) = .ok packet := by
        rw [← hcode, ← hcount]
        exact hpacket
      have hframe := frame_of_decode (by rw [hlength]; omega) hcounted hdecode
      have heq := (decodeMessagePacket_frame hframe).symm.trans hdecode
      refine ⟨message.take messageLength :: frames, ?_, ?_, ?_⟩
      · rintro frame (_ | ⟨_, hmem⟩)
        · exact hframe
        · exact hframes frame hmem
      · rw [List.flatten_cons, hflatten]
        exact hsplit
      · cases h
        rw [List.map_cons, Except.ok.inj heq]

theorem decodeFeedMessage_flatten {frames : List (List UInt8)} (hne : frames ≠ [])
    (h : ∀ frame ∈ frames, Frame frame) : decodeFeedMessage frames.flatten = .ok (frames.map framePacket) := by
  rw [decodeFeedMessage, if_neg, decodePackets_flatten h]
  intro hnil
  obtain ⟨frame, frames, rfl⟩ := List.exists_cons_of_ne_nil hne
  have hframe := (h frame List.mem_cons_self).header
  rw [List.flatten_cons, List.append_eq_nil_iff] at hnil
  simp [hnil.1] at hframe

theorem decodeFeedMessage_frames {message : List UInt8} {packets : List DhanFeedPacket}
    (h : decodeFeedMessage message = .ok packets) :
    ∃ frames : List (List UInt8), frames ≠ [] ∧ (∀ frame ∈ frames, Frame frame) ∧ frames.flatten = message ∧
      packets = frames.map framePacket := by
  unfold decodeFeedMessage at h
  split at h
  · cases h
  · rename_i hne
    obtain ⟨frames, hframes, hflatten, hpackets⟩ := decodePackets_frames h
    refine ⟨frames, ?_, hframes, hflatten, hpackets⟩
    rintro rfl
    exact hne hflatten.symm

/-! ### Encoding -/

theorem decimalNumber_toString (n : Nat) : decimalNumber (toString n) = n := by
  show Nat.ofDigitChars 10 (Nat.repr n).toList 0 = n
  rw [Nat.toList_repr, Nat.ofDigitChars_ten_toDigits]

theorem levelFields_depthLevel (packet : List UInt8) (offset : Nat) :
    levelFields (depthLevel packet offset) = unpackRow levelLayout packet offset := rfl

theorem levelFields_injective {level level' : DhanDepthLevel} (h : levelFields level = levelFields level') :
    level = level' := by
  cases level
  cases level'
  simpa [levelFields] using h

theorem fitsRow_headerFields {packet : DhanFeedPacket} (h : packet.WellFormed) :
    FitsRow headerLayout (headerFields packet) := by
  obtain ⟨n, hn, hsecurity⟩ := h.security
  obtain ⟨hcode, hlength, _⟩ := frameLength_eq_some h.length
  refine ⟨rfl, ⟨rfl, hcode⟩, rfl, ⟨rfl, hlength⟩, rfl, ⟨rfl, h.segment⟩, rfl, ⟨rfl, ?_⟩, trivial⟩
  show decimalNumber packet.securityId < 256 ^ 4
  rw [hsecurity, decimalNumber_toString]
  exact hn

/-- Levels read back one after the other. -/
theorem depthLevels_encodeLevels {levels : List DhanDepthLevel}
    (h : ∀ level ∈ levels, FitsRow levelLayout (levelFields level)) (before rest : List UInt8) :
    (List.range levels.length).map
        (fun level => depthLevel (before ++ (encodeLevels levels ++ rest)) (before.length + level * 20)) =
      levels := by
  induction levels generalizing before with
  | nil => rfl
  | cons level levels ih =>
      have hfits := h level List.mem_cons_self
      have hhead : depthLevel (before ++ (encodeLevels (level :: levels) ++ rest)) (before.length + 0 * 20) = level := by
        apply levelFields_injective
        rw [levelFields_depthLevel, encodeLevels, List.flatMap_cons, List.append_assoc, Nat.zero_mul, Nat.add_zero]
        exact unpackRow_packRow hfits before _
      have hrest := ih (fun level hlevel => h level (List.mem_cons_of_mem _ hlevel))
        (before ++ packRow levelLayout (levelFields level))
      have hwidth : (packRow levelLayout (levelFields level)).length = 20 := length_packRow hfits
      rw [List.length_append, hwidth, List.append_assoc, ← List.append_assoc (packRow _ _)] at hrest
      rw [List.length_cons, List.range_succ_eq_map, List.map_cons, hhead, List.map_map]
      refine congrArg (level :: ·) (Eq.trans (List.map_congr_left fun index _ => ?_) hrest)
      show depthLevel _ (before.length + (index + 1) * 20) = _
      rw [show before.length + (index + 1) * 20 = before.length + 20 + index * 20 by omega]
      rfl

/-- Encoding the levels of a packet gives its bytes back. -/
theorem encodeLevels_depthLevels {packet : List UInt8} {offset count : Nat}
    (h : offset + count * 20 ≤ packet.length) :
    encodeLevels ((List.range count).map fun level => depthLevel packet (offset + level * 20)) =
      (packet.drop offset).take (count * 20) := by
  induction count with
  | zero => rw [Nat.zero_mul, List.take_zero]; rfl
  | succ count ih =>
      have hlevel : packRow levelLayout (levelFields (depthLevel packet (offset + count * 20))) =
          (packet.drop (offset + count * 20)).take 20 := by
        rw [levelFields_depthLevel]
        exact packRow_unpackRow (by show _ + 20 ≤ _; omega)
      rw [List.range_succ, List.map_append, encodeLevels, List.flatMap_append, ← encodeLevels, ih (by omega),
        List.map_singleton, List.flatMap_singleton, hlevel, Nat.succ_mul, List.take_add, List.drop_drop]

/-- What a well-formed packet is encoded to: its header, fields and levels can be read back. -/
theorem encodeFrame_reads {packet : DhanFeedPacket} (h : packet.WellFormed) :
    (encodeFrame packet).length = packet.messageLength ∧
      unpackRow headerLayout (encodeFrame packet) 0 = headerFields packet ∧
      unpackRow (layout packet.responseCode) (encodeFrame packet) 8 = packet.fields ∧
      decodeDepth packet.responseCode (encodeFrame packet) = packet.depth := by
  obtain ⟨_, _, htotal⟩ := frameLength_eq_some h.length
  have hheader := fitsRow_headerFields h
  have height : (packRow headerLayout (headerFields packet)).length = 8 := length_packRow hheader
  have hfields := length_packRow h.fields
  have hlevels : (encodeLevels packet.depth).length = packet.depth.length * 20 := by
    have hlevel : ∀ level ∈ packet.depth, (packRow levelLayout (levelFields level)).length = 20 :=
      fun level hlevel => length_packRow (h.levels level hlevel)
    rw [encodeLevels, List.length_flatMap, List.map_congr_left hlevel, List.map_const', List.sum_replicate_nat]
  have hdepth := h.depth
  refine ⟨?_, ?_, ?_, ?_⟩
  · rw [encodeFrame, List.length_append, List.length_append, height, hfields, hlevels, hdepth, htotal]
    split <;> rfl
  · exact unpackRow_packRow hheader [] _
  · have hread := unpackRow_packRow h.fields (packRow headerLayout (headerFields packet)) (encodeLevels packet.depth)
    rw [height] at hread
    exact hread
  · unfold decodeDepth
    split
    · rename_i hcode
      rw [if_pos hcode] at hdepth
      have hread := depthLevels_encodeLevels h.levels
        (packRow headerLayout (headerFields packet) ++ packRow (layout packet.responseCode) packet.fields) []
      have hoffset : rowWidth (layout packet.responseCode) = 54 := by rw [hcode]; rfl
      rw [List.length_append, height, hfields, hoffset, hdepth, List.append_nil, List.append_assoc] at hread
      exact hread
    · rename_i hcode
      rw [if_neg hcode] at hdepth
      exact (List.length_eq_zero_iff.mp hdepth).symm

/-- A well-formed packet is encoded to the frame it stands for. -/
theorem frame_encodeFrame {packet : DhanFeedPacket} (h : packet.WellFormed) :
    Frame (encodeFrame packet) ∧ framePacket (encodeFrame packet) = packet := by
  obtain ⟨hlength, hheader, hfields, hdepth⟩ := encodeFrame_reads h
  obtain ⟨_, _, htotal⟩ := frameLength_eq_some h.length
  obtain ⟨n, _, hsecurity⟩ := h.security
  simp only [unpackRow, headerLayout, headerFields, List.cons.injEq, Prod.mk.injEq, true_and, and_true] at hheader
  obtain ⟨hcode, hcount, hsegment, hid⟩ := hheader
  replace hcode : (unpackFrom .B (encodeFrame packet) 0).raw = packet.responseCode := congrArg Value.raw hcode
  replace hcount : (unpackFrom .H (encodeFrame packet) 1).raw = packet.messageLength := congrArg Value.raw hcount
  replace hsegment : (unpackFrom .B (encodeFrame packet) 3).raw = packet.exchangeSegmentCode :=
    congrArg Value.raw hsegment
  replace hid : (unpackFrom .I (encodeFrame packet) 4).raw = decimalNumber packet.securityId := congrArg Value.raw hid
  refine ⟨⟨by rw [hlength]; omega, by rw [hcount, hlength], by rw [hcode, hlength, h.length]⟩, ?_⟩
  unfold framePacket
  rw [hcode, hsegment, hid, hlength, hfields, hdepth, hsecurity, decimalNumber_toString, ← hsecurity]

/-- The packet of a frame is well-formed, and encoding it gives the frame back. -/
theorem encodeFrame_framePacket {frame : List UInt8} (h : Frame frame) :
    (framePacket frame).WellFormed ∧ encodeFrame (framePacket frame) = frame := by
  obtain ⟨_, _, htotal⟩ := frameLength_eq_some h.exact
  refine ⟨⟨h.exact, (fits_unpackFrom .B frame 3).2, ⟨_, (fits_unpackFrom .I frame 4).2, rfl⟩, fitsRow_unpackRow _ _ _,
    ?_, ?_⟩, ?_⟩
  · show (decodeDepth (unpackFrom .B frame 0).raw frame).length = if (unpackFrom .B frame 0).raw = 8 then 5 else 0
    unfold decodeDepth
    split <;> rfl
  · intro level hlevel
    have hmem : level ∈ decodeDepth (unpackFrom .B frame 0).raw frame := hlevel
    unfold decodeDepth at hmem
    split at hmem
    · obtain ⟨index, _, rfl⟩ := List.mem_map.mp hmem
      rw [levelFields_depthLevel]
      exact fitsRow_unpackRow _ _ _
    · cases hmem
  · have hheader : headerFields (framePacket frame) = unpackRow headerLayout frame 0 := by
      show [_, ("message_length", Value.int frame.length), _, ("security_id", Value.int (decimalNumber (toString _)))] = _
      rw [decimalNumber_toString, ← h.counted]
      rfl
    have hlevels : encodeLevels (decodeDepth (unpackFrom .B frame 0).raw frame) =
        (frame.drop (8 + rowWidth (layout (unpackFrom .B frame 0).raw))).take
          (if (unpackFrom .B frame 0).raw = 8 then 100 else 0) := by
      unfold decodeDepth
      split
      · rename_i hcode
        rw [if_pos hcode, hcode] at htotal
        rw [hcode]
        exact encodeLevels_depthLevels (by rw [htotal]; decide)
      · rw [List.take_zero]
        rfl
    have hfields : packRow (layout (unpackFrom .B frame 0).raw) (framePacket frame).fields =
        (frame.drop 8).take (rowWidth (layout (unpackFrom .B frame 0).raw)) :=
      packRow_unpackRow (by omega)
    have height : packRow headerLayout (unpackRow headerLayout frame 0) = frame.take 8 :=
      packRow_unpackRow (by show 0 + 8 ≤ _; have := h.header; omega)
    calc encodeFrame (framePacket frame)
        = frame.take 8 ++ ((frame.drop 8).take (rowWidth (layout (unpackFrom .B frame 0).raw)) ++
            ((frame.drop 8).drop (rowWidth (layout (unpackFrom .B frame 0).raw))).take
              (if (unpackFrom .B frame 0).raw = 8 then 100 else 0)) := by
          rw [encodeFrame, hheader, height, List.drop_drop]
          exact congrArg (_ ++ ·) (congrArg₂ (· ++ ·) hfields hlevels)
      _ = frame.take 8 ++ frame.drop 8 := by
          have hall : (frame.drop 8).length ≤ rowWidth (layout (unpackFrom .B frame 0).raw) +
              if (unpackFrom .B frame 0).raw = 8 then 100 else 0 := by
            rw [List.length_drop]
            omega
          rw [← List.take_add (l := frame.drop 8), List.take_of_length_le hall]
      _ = frame := List.take_append_drop 8 frame

/-! ### The decoder -/

/-- The decoder accepts the non-empty rows of frames and returns the packet of each, in order; decoding and
encoding undo each other. -/
theorem decodeFeedMessage_format :
    (∀ message, (∃ packets, decodeFeedMessage message = .ok packets) ↔
      ∃ frames : List (List UInt8), frames ≠ [] ∧ (∀ frame ∈ frames, Frame frame) ∧ frames.flatten = message) ∧
    (∀ frames : List (List UInt8), frames ≠ [] → (∀ frame ∈ frames, Frame frame) →
      decodeFeedMessage frames.flatten = .ok (frames.map framePacket)) ∧
    (∀ packets : List DhanFeedPacket, packets ≠ [] → (∀ packet ∈ packets, packet.WellFormed) →
      decodeFeedMessage (encodeFeedMessage packets) = .ok packets) ∧
    ∀ message packets, decodeFeedMessage message = .ok packets →
      encodeFeedMessage packets = message ∧ packets ≠ [] ∧ ∀ packet ∈ packets, packet.WellFormed := by
  refine ⟨fun message => ⟨?_, ?_⟩, fun frames => decodeFeedMessage_flatten, ?_, ?_⟩
  · rintro ⟨packets, h⟩
    obtain ⟨frames, hne, hframes, hflatten, _⟩ := decodeFeedMessage_frames h
    exact ⟨frames, hne, hframes, hflatten⟩
  · rintro ⟨frames, hne, hframes, rfl⟩
    exact ⟨_, decodeFeedMessage_flatten hne hframes⟩
  · intro packets hne hpackets
    have hframes : ∀ frame ∈ packets.map encodeFrame, Frame frame := by
      intro frame hmem
      obtain ⟨packet, hpacket, rfl⟩ := List.mem_map.mp hmem
      exact (frame_encodeFrame (hpackets packet hpacket)).1
    have hsame : (packets.map encodeFrame).map framePacket = packets := by
      rw [List.map_map]
      exact (List.map_congr_left fun packet hpacket => (frame_encodeFrame (hpackets packet hpacket)).2).trans
        (List.map_id _)
    rw [encodeFeedMessage, List.flatMap_def, decodeFeedMessage_flatten (by simpa using hne) hframes, hsame]
  · intro message packets h
    obtain ⟨frames, hne, hframes, rfl, rfl⟩ := decodeFeedMessage_frames h
    refine ⟨?_, by simpa using hne, ?_⟩
    · rw [encodeFeedMessage, List.flatMap_def, List.map_map]
      exact congrArg List.flatten ((List.map_congr_left fun frame hframe =>
        (encodeFrame_framePacket (hframes frame hframe)).2).trans (List.map_id _))
    · intro packet hmem
      obtain ⟨frame, hframe, rfl⟩ := List.mem_map.mp hmem
      exact (encodeFrame_framePacket (hframes frame hframe)).1

/-- An open interest of 7 of security 13. -/
def openInterestFrame : List UInt8 := [5, 12, 0, 1, 13, 0, 0, 0, 7, 0, 0, 0]

/-- A FULL packet of security 60001: three sold at 1.0, five levels of bid 1.0 and ask 2.0. -/
def fullFrame : List UInt8 :=
  [8, 162, 0, 2, 97, 234, 0, 0] ++
    [0, 0, 128, 63, 3, 0, 16, 39, 0, 0, 0, 0, 128, 63, 3, 0, 0, 0, 44, 1, 0, 0, 200, 0, 0, 0] ++
    [9, 0, 0, 0, 10, 0, 0, 0, 8, 0, 0, 0] ++
    [0, 0, 128, 63, 0, 0, 0, 63, 0, 0, 0, 64, 0, 0, 0, 63] ++
    (List.range 5).flatMap fun level =>
      [40, 0, 0, 0, 50, 0, 0, 0, level.toUInt8, 0, 1, 0, 0, 0, 128, 63, 0, 0, 0, 64]

theorem decodeFeedMessage_openInterest_full :
    decodeFeedMessage (openInterestFrame ++ fullFrame) =
      .ok [{ responseCode := 5, messageLength := 12, exchangeSegmentCode := 1, securityId := "13",
             fields := [("open_interest", .int 7)] },
           { responseCode := 8, messageLength := 162, exchangeSegmentCode := 2, securityId := "60001",
             fields := [("last_price", .float 0x3F800000), ("last_quantity", .int 3),
               ("last_trade_epoch", .int 10000), ("average_price", .float 0x3F800000), ("volume", .int 3),
               ("total_sell_quantity", .int 300), ("total_buy_quantity", .int 200), ("open_interest", .int 9),
               ("highest_open_interest", .int 10), ("lowest_open_interest", .int 8),
               ("day_open", .float 0x3F800000), ("day_close", .float 0x3F000000),
               ("day_high", .float 0x40000000), ("day_low", .float 0x3F000000)],
             depth := (List.range 5).map fun level =>
               { bidQuantity := 40, askQuantity := 50, bidOrders := level, askOrders := 1,
                 bidPrice := 0x3F800000, askPrice := 0x40000000 } }] := by
  have hopenInterest : Frame openInterestFrame := ⟨by decide, by decide, by decide⟩
  have hfull : Frame fullFrame := ⟨by decide +kernel, by decide +kernel, by decide +kernel⟩
  have h := decodeFeedMessage_format.2.1 [openInterestFrame, fullFrame] (by simp)
    (by simpa using ⟨hopenInterest, hfull⟩)
  rw [List.flatten_cons, List.flatten_cons, List.flatten_nil, List.append_nil] at h
  rw [h]
  decide +kernel

end TecoQuant.Brokers
