import TecoQuant.BaseExcept
import TecoQuant.BaseStruct

/-! The packets of the live feed and their decoder. A float field is kept as its raw pattern. -/

namespace TecoQuant.Brokers

open Struct

structure DhanDepthLevel where
  bidQuantity : Nat
  askQuantity : Nat
  bidOrders : Nat
  askOrders : Nat
  bidPrice : Nat
  askPrice : Nat
  deriving DecidableEq, Repr

structure DhanFeedPacket where
  responseCode : Nat
  messageLength : Nat
  exchangeSegmentCode : Nat
  securityId : String
  fields : List (String × Value)
  depth : List DhanDepthLevel := []
  deriving DecidableEq, Repr

/-- `exact_lengths`. -/
def exactLength : Nat → Option Nat
  | 2 => some 16
  | 4 => some 50
  | 5 => some 12
  | 6 => some 16
  | 8 => some 162
  | 50 => some 10
  | _ => none

/-- The fields of a packet by its response code. -/
def decodeFields (responseCode : Nat) (packet : List UInt8) : List (String × Value) :=
  match responseCode with
  | 2 => [
      ("last_price", unpackFrom .f packet 8),
      ("last_trade_epoch", unpackFrom .I packet 12)]
  | 4 => [
      ("last_price", unpackFrom .f packet 8),
      ("last_quantity", unpackFrom .H packet 12),
      ("last_trade_epoch", unpackFrom .I packet 14),
      ("average_price", unpackFrom .f packet 18),
      ("volume", unpackFrom .I packet 22),
      ("total_sell_quantity", unpackFrom .I packet 26),
      ("total_buy_quantity", unpackFrom .I packet 30),
      ("day_open", unpackFrom .f packet 34),
      ("day_close", unpackFrom .f packet 38),
      ("day_high", unpackFrom .f packet 42),
      ("day_low", unpackFrom .f packet 46)]
  | 5 => [("open_interest", unpackFrom .I packet 8)]
  | 6 => [
      ("previous_close", unpackFrom .f packet 8),
      ("previous_open_interest", unpackFrom .I packet 12)]
  | 8 => [
      ("last_price", unpackFrom .f packet 8),
      ("last_quantity", unpackFrom .H packet 12),
      ("last_trade_epoch", unpackFrom .I packet 14),
      ("average_price", unpackFrom .f packet 18),
      ("volume", unpackFrom .I packet 22),
      ("total_sell_quantity", unpackFrom .I packet 26),
      ("total_buy_quantity", unpackFrom .I packet 30),
      ("open_interest", unpackFrom .I packet 34),
      ("highest_open_interest", unpackFrom .I packet 38),
      ("lowest_open_interest", unpackFrom .I packet 42),
      ("day_open", unpackFrom .f packet 46),
      ("day_close", unpackFrom .f packet 50),
      ("day_high", unpackFrom .f packet 54),
      ("day_low", unpackFrom .f packet 58)]
  | 50 => [("disconnect_code", unpackFrom .H packet 8)]
  | _ => []

/-- `DhanDepthLevel(*unpack_from("<IIHHff", packet, offset))`. -/
def depthLevel (packet : List UInt8) (offset : Nat) : DhanDepthLevel where
  bidQuantity := (unpackFrom .I packet offset).raw
  askQuantity := (unpackFrom .I packet (offset + 4)).raw
  bidOrders := (unpackFrom .H packet (offset + 8)).raw
  askOrders := (unpackFrom .H packet (offset + 10)).raw
  bidPrice := (unpackFrom .f packet (offset + 12)).raw
  askPrice := (unpackFrom .f packet (offset + 16)).raw

/-- The five levels of a full packet. -/
def decodeDepth (responseCode : Nat) (packet : List UInt8) : List DhanDepthLevel :=
  if responseCode = 8 then (List.range 5).map fun level => depthLevel packet (62 + level * 20) else []

/-- The four header fields, `unpack_from("<BHBI", packet, 0)`. -/
def header (packet : List UInt8) : Nat × Nat × Nat × Nat :=
  ((unpackFrom .B packet 0).raw, (unpackFrom .H packet 1).raw, (unpackFrom .B packet 3).raw,
    (unpackFrom .I packet 4).raw)

/-- `decode_feed_packet`. -/
def decodeFeedPacket (packet : List UInt8) : Except String DhanFeedPacket :=
  if packet.length < 8 then .error "Dhan feed packet is shorter than its 8-byte header"
  else
    let (responseCode, messageLength, segmentCode, securityId) := header packet
    if messageLength ≠ packet.length then
      .error ("Dhan feed packet length mismatch: header=" ++ toString messageLength ++ ", actual=" ++
        toString packet.length)
    else
      match exactLength responseCode with
      | none => .error ("unsupported Dhan feed response code: " ++ toString responseCode)
      | some expectedLength =>
          if packet.length ≠ expectedLength then
            .error ("invalid Dhan response-code " ++ toString responseCode ++ " packet length: expected=" ++
              toString expectedLength ++ ", actual=" ++ toString packet.length)
          else .ok {
            responseCode, messageLength
            exchangeSegmentCode := segmentCode
            securityId := toString securityId
            fields := decodeFields responseCode packet
            depth := decodeDepth responseCode packet }

/-- One packet of a message; the loop decodes market-status packets itself. -/
def decodeMessagePacket (responseCode messageLength : Nat) (packet : List UInt8) : Except String DhanFeedPacket :=
  if responseCode = 7 then
    if messageLength ≠ 8 then .error "invalid Dhan market-status packet length"
    else
      let (_, _, segmentCode, securityId) := header packet
      .ok {
        responseCode := 7
        messageLength := 8
        exchangeSegmentCode := segmentCode
        securityId := toString securityId
        fields := [] }
  else decodeFeedPacket packet

/-- The loop of `decode_feed_message` over the bytes that remain. -/
def decodePackets (remaining : List UInt8) : Except String (List DhanFeedPacket) :=
  if remaining = [] then .ok []
  else if remaining.length < 8 then .error "Dhan live-feed message ends with a truncated header"
  else
    let responseCode := (unpackFrom .B remaining 0).raw
    let messageLength := (unpackFrom .H remaining 1).raw
    if _hlength : messageLength < 8 ∨ remaining.length < messageLength then
      .error "Dhan live-feed message contains an invalid packet length"
    else do
      let packet ← decodeMessagePacket responseCode messageLength (remaining.take messageLength)
      return packet :: (← decodePackets (remaining.drop messageLength))
termination_by remaining.length
decreasing_by
  rw [List.length_drop]
  omega

/-- `decode_feed_message`. -/
def decodeFeedMessage (message : List UInt8) : Except String (List DhanFeedPacket) :=
  if message = [] then .error "Dhan live-feed message cannot be empty" else decodePackets message

end TecoQuant.Brokers
