import Polyline.Proofs.CommandLine.RoundTrip

/-! Shapes in the text format are plain text. All their bytes are printable ASCII, so it does not
matter whether they are taken for characters one by one, read as UTF-8, or read leniently. -/

set_option autoImplicit false

namespace Polyline

open SampleFormat

namespace Shape

variable {source : Type} [LonLat source] (factor : Int32) (points : List source)

theorem toNat_mem_encode_varint5 {byte : UInt8} (member : byte ∈ encode .varint5 factor points) :
    63 ≤ byte.toNat ∧ byte.toNat ≤ 126 := by
  rw [encode, GridPoint.encodeGrid_eq_flatMap] at member
  obtain ⟨least, below⟩ := toNat_mem_flatMap_encode member
  exact ⟨least, Nat.le_of_lt_succ below⟩

theorem toNat_lt_of_mem_encode_varint5 :
    ∀ byte ∈ encode .varint5 factor points, byte.toNat < 0x80 := by
  intro byte member
  exact Nat.lt_of_le_of_lt (toNat_mem_encode_varint5 factor points member).2 (by decide)

theorem utf8_encodeText :
    Utf8.encode (encodeText factor points) = encode .varint5 factor points :=
  Utf8.encode_ofList_map_ofUInt8 (toNat_lt_of_mem_encode_varint5 factor points)

theorem decodeText_encodeText {target : Type} [OfLonLat target] (precision : Binary64) :
    (decodeText precision (encodeText factor points) : Except MalformedStream (List target)) =
      decode .varint5 precision (encode .varint5 factor points) :=
  congrArg (decode .varint5 precision) (utf8_encodeText factor points)

theorem shapeLine_encode_varint5 :
    Command.shapeLine .varint5 (encode .varint5 factor points) =
      encodeText factor points ++ "\n" := by
  have read := Utf8.decodeLenient_of_ascii (toNat_lt_of_mem_encode_varint5 factor points)
  rw [Command.shapeLine, if_pos (by rfl), read, encodeText]

end Shape

/-- No sum of a group and the offset goes beyond the largest byte that is written. So the text form
of a shape has the bytes of the shape, decodes like them, needs no replacement character, and is
what the program prints, up to the line feed behind it. -/
theorem encode_is_plain_text {source target : Type} [LonLat source] [OfLonLat target] :
    (∀ delta,
      let groups := summands (ZigZag.encode delta)
      SampleFormat.encode .varint5 delta = groups.map (· + offset .varint5) ∧
      ∀ group ∈ groups, group.toNat + (offset .varint5).toNat ≤ 126) ∧
    (∀ factor, ∀ points : List source,
      let bytes := Shape.encode .varint5 factor points
      let text := Shape.encodeText factor points
      (∀ byte ∈ bytes, 63 ≤ byte.toNat ∧ byte.toNat ≤ 126) ∧
      Utf8.encode text = bytes ∧
      (∀ precision, (Shape.decodeText precision text : Except MalformedStream (List target)) =
        Shape.decode .varint5 precision bytes) ∧
      Utf8.decode? bytes = some text ∧
      Utf8.decodeLenient bytes = text) ∧
    ∀ tree : FileTree, ∀ path points, tree.HoldsPoints path points → ∀ precision : Precision,
      let bytes := Shape.encode .varint5 precision.encodeFactor points
      ∃ line, CommandLine.Succeeds (.encode path ⟨.varint5, precision.digits⟩ none) tree line tree ∧
        line = Shape.encodeText precision.encodeFactor points ++ "\n" ∧
        Utf8.encode line = bytes ++ [0x0a] := by
  refine ⟨?_, ?_, ?_⟩
  · intro delta groups
    refine ⟨encodeCode_varint5 _, ?_⟩
    intro group member
    exact Nat.le_of_lt_succ (Nat.add_lt_add_right (toNat_lt_of_mem_summands member) 63)
  · intro factor points bytes text
    have written := Shape.utf8_encodeText factor points
    have strict := Utf8.decode?_encode (Shape.encodeText factor points)
    have lenient := Utf8.decodeLenient_encode (Shape.encodeText factor points)
    rw [written] at strict lenient
    refine ⟨?_, written, Shape.decodeText_encodeText factor points, strict, lenient⟩
    intro byte member
    exact Shape.toNat_mem_encode_varint5 factor points member
  · intro tree path points held precision bytes
    exact ⟨_, CommandLine.succeeds_encode_line .varint5 precision held,
      Shape.shapeLine_encode_varint5 _ points, PointList.encode_shapeLine rfl precision points⟩

/-- A shape of one point, as it is printed for a file that lists the point. -/
theorem encode_is_plain_text_single :
    let tree : FileTree := ⟨[(["points"], .file (Utf8.encode "[[-120.2,38.5]]"))]⟩
    let lon : Binary64 := (Decimal.mk true 1202 (-1)).toBinary64
    let lat : Binary64 := (Decimal.mk false 385 (-1)).toBinary64
    tree.HoldsPoints "points" [⟨lon, lat⟩] ∧
      CommandLine.Succeeds (.encode "points" ⟨.varint5, 5⟩ none) tree "_p~iF~ps|U\n" tree := by
  intro tree lon lat
  have accepted : PointList.read? "[[-120.2,38.5]]" = some [⟨lon, lat⟩] := by decide +kernel
  have held : tree.HoldsPoints "points" [⟨lon, lat⟩] := ⟨_, _, rfl, Utf8.decode?_encode _, accepted⟩
  have spelled : Shape.encodeText Precision.polyline5.encodeFactor [Point.mk lon lat] =
      "_p~iF~ps|U" := by decide +kernel
  obtain ⟨_, _, prints⟩ := @encode_is_plain_text Point Point _ _
  obtain ⟨line, printed, rfl, _⟩ := prints tree "points" _ held .polyline5
  rw [spelled] at printed
  exact ⟨held, printed⟩

end Polyline
