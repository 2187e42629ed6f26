import Bango.Characters.Records

set_option autoImplicit false

/-! # How many items are loaded

`LoadItems` counts all rows, pushes the records of as many as fit into one packet, and merges that
packet into another one behind six bytes. The records of 520 rows fit into the first packet, those of
519 into the second. -/

namespace Bango.Network.Packet

open Bango.Lib

variable {p : Packet}

theorem Holds.new (memory : Memory) : (new memory).Holds 0 [] :=
  ⟨⟨wellFormed_new memory, rfl, rfl⟩, rfl⟩

theorem pushes_append (p : Packet) (values values' : List (List UInt8)) :
    p.pushes (values ++ values') = (p.pushes values).pushes values' := List.foldl_append

/-- Nothing is pushed to a full packet. -/
theorem pushes_of_full {values : List (List UInt8)}
    (h : ∀ value ∈ values, maxPacketLength < p.endOffset + value.length) : p.pushes values = p := by
  unfold pushes
  induction values with
  | nil => rfl
  | cons value values ih =>
      obtain ⟨hvalue, hvalues⟩ := List.forall_mem_cons.1 h
      rw [List.foldl_cons, push_of_full hvalue]
      exact ih hvalues

end Bango.Network.Packet

namespace Bango.Characters

open Bango.Lib Bango.Network

variable (memory memory' : Memory) (player : Player) {rows : List ItemRow}

/-- The bytes of the records of some rows. -/
theorem length_flatten_rows (rows : List ItemRow) :
    (rows.map fun row => encode row.itemInfo).flatten.length = rows.length * 63 := by
  rw [← List.flatMap_def, ← List.length_map ItemRow.itemInfo, ← List.flatMap_map]
  exact Packed.length_flatMap_encode _

/-- As many records are read as there are. -/
theorem runBytes_popItems (rows : List ItemRow) (rest : List UInt8) :
    (Player.popItems rows.length).runBytes
      ((rows.map fun row => encode row.itemInfo).flatten ++ rest) =
        .ok (rows.map ItemRow.itemInfo, rest) := by
  induction rows with
  | nil => rfl
  | cons row rows ih =>
      rw [List.map_cons, List.flatten_cons, List.append_assoc, List.length_cons, Player.popItems,
        Pops.runBytes_get_bind, Pops.runBytes_bind, ih]
      rfl

/-- The packet with the number and the records, before it is merged. -/
theorem count_holds (id : UInt32) (count : UInt16) :
    ((Packet.ofType memory' d2sLoadItems).pushes [encode id, encode count]).Holds d2sLoadItems
      (encode id ++ (encode count ++ [])) := by
  refine (Packet.Holds.ofType memory' d2sLoadItems).pushes _ ?_
  simp only [List.nil_append, List.flatten_cons, List.flatten_nil, List.length_append,
    Packed.length_encode']
  decide

/-- Up to 519 rows arrive. -/
theorem loadItems_arrives (h : rows.length ≤ 519) :
    Arrives (DatabaseManager.loadItems memory memory' player.uid rows) d2sLoadItems
      (DBListener.onLoadItems player) (rows.map ItemRow.itemInfo) := by
  have hmax : maxPacketLength = 32768 := rfl
  have hlen := length_flatten_rows rows
  have hcount : (UInt16.ofNat rows.length).toNat = rows.length :=
    UInt16.toNat_ofNat_of_lt' (by show rows.length < 65536; omega)
  have hitems := (Packet.Holds.new memory).pushes
    (rows.map fun row => encode row.itemInfo)
    (by rw [List.nil_append, hlen]; omega)
  have hp := count_holds memory' player.uid (UInt16.ofNat rows.length)
  have hsize : (encode player.uid ++ (encode (UInt16.ofNat rows.length) ++ [])).length = 6 := by
    simp only [List.length_append, Packed.length_encode']
    rfl
  obtain ⟨p, hmerge, hholds⟩ := hp.merge hitems.carries
    (by rw [List.nil_append, List.length_append, hsize, hlen]; omega)
  show Arrives (Packet.merge _ _) _ _ _
  rw [hmerge]
  refine hholds.arrives ?_
  have hread := runBytes_popItems rows []
  rw [List.append_nil] at hread
  simp only [List.nil_append, List.append_assoc, DBListener.onLoadItems, Player.onLoadItems,
    Pops.runBytes_get_bind, if_true, hcount, hread]

/-- With more, the second packet overflows. -/
theorem loadItems_ne_ok (h : 520 ≤ rows.length) (p : Packet) :
    DatabaseManager.loadItems memory memory' player.uid rows ≠ .ok p := by
  have hmax : maxPacketLength = 32768 := rfl
  have hrecord : ∀ row : ItemRow, (encode row.itemInfo).length = 63 :=
    fun row => Packed.length_encode _
  -- The records of the first 520 rows are pushed, and the others are dropped.
  have hfirst := (Packet.Holds.new memory).pushes
    ((rows.take 520).map fun row => encode row.itemInfo)
    (by rw [List.nil_append, length_flatten_rows, List.length_take]; omega)
  have hend := hfirst.carries.end_eq
  rw [List.nil_append, length_flatten_rows, List.length_take, Nat.min_eq_left h] at hend
  have hitems : (Packet.new memory).pushes (rows.map fun row => encode row.itemInfo) =
      (Packet.new memory).pushes ((rows.take 520).map fun row => encode row.itemInfo) := by
    conv_lhs => rw [← List.take_append_drop 520 rows, List.map_append, Packet.pushes_append]
    refine Packet.pushes_of_full fun value hvalue => ?_
    obtain ⟨row, -, rfl⟩ := List.mem_map.1 hvalue
    rw [hrecord, hend]
    decide
  intro hmerge
  have hp := count_holds memory' player.uid (UInt16.ofNat rows.length)
  have hstart := hp.carries.end_eq
  have hsize : (encode player.uid ++ (encode (UInt16.ofNat rows.length) ++ [])).length = 6 := by
    simp only [List.length_append, Packed.length_encode']
    rfl
  obtain ⟨-, -, hmerged⟩ := hfirst.carries.merged_eq
  change Packet.merge _ _ = _ at hmerge
  rw [hitems] at hmerge
  obtain ⟨-, -, hroom, -⟩ := Packet.merge_eq_ok.1 hmerge
  rw [hmerged, List.nil_append, length_flatten_rows, List.length_take, Nat.min_eq_left h, hstart,
    hsize] at hroom
  omega

/-- The items of a player are loaded, all of them and in order, exactly when there are at most 519. -/
theorem loadItems_arrives_iff (rows : List ItemRow) :
    Arrives (DatabaseManager.loadItems memory memory' player.uid rows) d2sLoadItems
      (DBListener.onLoadItems player) (rows.map ItemRow.itemInfo) ↔ rows.length ≤ 519 := by
  constructor
  · rintro ⟨p, hp, -⟩
    by_contra hmany
    exact loadItems_ne_ok memory memory' player (by omega) p hp
  · exact loadItems_arrives memory memory' player

/-- A row of an item without anything special. -/
def plainRow : ItemRow :=
  ⟨1, 7, 1, 0, 0, 4, 0, 0, 0, 0, 0, 0, 0, 0, 0, 0, 0, 0, 0, 0, 0, 0, 0, 0, 0, 0, 0, 0, 0, 0⟩

/-- With 520 items, nothing is written. -/
theorem loadItems_overflow :
    ¬ ∀ rows : List ItemRow, rows.length ≤ 65535 →
      Arrives (DatabaseManager.loadItems (fun _ => 0) (fun _ => 0) 9 rows) d2sLoadItems
        (DBListener.onLoadItems ⟨9, Packed.decode [], [], 0, 0, 0, 0, 0, 0⟩)
        (rows.map ItemRow.itemInfo) := by
  intro h
  have hlen : (List.replicate 520 plainRow).length = 520 := List.length_replicate
  obtain ⟨p, hp, -⟩ := h (List.replicate 520 plainRow) (by rw [hlen]; decide)
  exact loadItems_ne_ok _ _ ⟨9, Packed.decode [], [], 0, 0, 0, 0, 0, 0⟩ (Nat.le_of_eq hlen.symm) p hp

end Bango.Characters
