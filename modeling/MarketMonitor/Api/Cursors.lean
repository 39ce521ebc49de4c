import MarketMonitor.Library.Base64
import MarketMonitor.Library.JsonAscii
import MarketMonitor.Library.Sha256
import MarketMonitor.Api.EventView

/-!
# Cursors

A cursor carries the sort value and the identifier of the last item of a page, with a
checksum. `decodeCursor_encodeCursor` : the pair reads back, whatever its texts.
-/

namespace MarketMonitor

/-- What a listing raises. -/
inductive ListingError where
  | valueError (message : String)
  | api (error : ApiError)
  deriving DecidableEq, Repr

/-- `hashlib.sha256(f"{sort_value}\0{stable_uid}".encode()).hexdigest()[:16]` -/
def cursorChecksum (sortValue stableUid : String) : String :=
  let raw := (sortValue.toList ++ '\x00' :: stableUid.toList).flatMap String.utf8EncodeChar
  String.ofList ((Sha256.hexdigest raw).toList.take 16)

/-- `encode_cursor(sort_value, stable_uid)` -/
def encodeCursor (sortValue stableUid : String) : String :=
  let payload := Json.asciiStrings [sortValue, stableUid, cursorChecksum sortValue stableUid]
  String.ofList (Base64.strip (Base64.encode (payload.flatMap String.utf8EncodeChar)))

/-- The pair of a decoded cursor, whose checksum is its own. -/
def checkedPair : Option Json.Value → Except ListingError (String × String)
  | some (.arr [.str sortValue, .str stableUid, .str checksum]) =>
    if checksum = cursorChecksum sortValue stableUid then .ok (sortValue, stableUid)
    else .error (.valueError "invalid cursor")
  | _ => .error (.valueError "invalid cursor")

/-- `decode_cursor(cursor)` -/
def decodeCursor (cursor : String) : Except ListingError (String × String) :=
  let text := cursor.toList ++ Base64.padding cursor.toList.length
  checkedPair ((Base64.decode text).bind Json.loads)

/-- A cursor decodes to the pair it was made of. -/
theorem decodeCursor_encodeCursor (sortValue stableUid : String) :
    decodeCursor (encodeCursor sortValue stableUid) = .ok (sortValue, stableUid) := by
  have hpayload : ∀ ss : List String,
      Json.loads ((Json.asciiStrings ss).flatMap String.utf8EncodeChar) =
        some (.arr (ss.map .str)) := by
    intro ss
    have hunique : Json.uniqueKeys (.arr (ss.map .str)) = true :=
      (Json.Plain.arr_map (fun s => Json.Plain.str s) ss).uniqueKeys
    rw [Json.loads, Json.decode, Json.fromUTF8?_encode]
    simp only [Option.bind_eq_bind, Option.bind_some, String.toList_ofList,
      Json.scan_asciiStrings, Option.map_some, Json.toDict_of_uniqueKeys _ hunique]
  have hpair : checkedPair (some (.arr [.str sortValue, .str stableUid,
      .str (cursorChecksum sortValue stableUid)])) = .ok (sortValue, stableUid) := if_pos rfl
  rw [decodeCursor, encodeCursor, String.toList_ofList, Base64.decode_pad_strip,
    Option.bind_some, hpayload, List.map_cons, List.map_cons, List.map_singleton, hpair]

end MarketMonitor
