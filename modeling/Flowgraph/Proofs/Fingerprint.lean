import Flowgraph.Intake
import Flowgraph.Proofs.Digest.Sha256
import Flowgraph.Proofs.Wire.Graph
import Mathlib.Data.List.Basic
/-!
# What a fingerprint tells apart

The compact text of a graph tells it from every other graph, also where reading would bring two
graphs into the same shape. So two graphs have one fingerprint only if the digest collides.
-/
namespace Flowgraph

open Json

/-! Bytes -/

theorem toList_loop_eq (bytes : ByteArray) (i : Nat) (before : List UInt8) :
    ByteArray.toList.loop bytes i before = before.reverse ++ bytes.data.toList.drop i := by
  induction h : bytes.size - i generalizing i before with
  | zero =>
    have hlength : bytes.data.toList.length ≤ i := by
      simpa using (by omega : bytes.size ≤ i)
    rw [ByteArray.toList.loop, if_neg (by omega), List.drop_eq_nil_of_le hlength, List.append_nil]
  | succ n ih =>
    have hi : i < bytes.size := by omega
    have hget : bytes.get! i = bytes.data[i] := getElem!_pos bytes.data i hi
    have hlength : i < bytes.data.toList.length := by simpa using hi
    rw [ByteArray.toList.loop, if_pos hi, ih _ _ (by omega), List.drop_eq_getElem_cons hlength]
    simp [hget]

theorem toUTF8_toList_injective {s t : String} (h : s.toUTF8.toList = t.toUTF8.toList) :
    s = t := by
  rw [ByteArray.toList, ByteArray.toList, toList_loop_eq, toList_loop_eq] at h
  apply String.toByteArray_inj.mp
  apply ByteArray.ext
  simpa using h

/-! Documents -/

theorem Kind.eq_of_payload? {k l : Kind} (htag : k.tag = l.tag) (h : k.payload? = l.payload?) :
    k = l := by
  cases k <;> cases l <;> cases htag
  · rfl
  next a b =>
    cases a with
    | none =>
      cases b with
      | none => rfl
      | some b => cases h
    | some a =>
      cases b with
      | none => cases h
      | some b =>
        have hword : a.word = b.word := by simpa [payload?] using h
        rw [Key.word_injective hword]
  next p q =>
    have hword : p.word = q.word := by simpa [payload?] using h
    rw [Key.word_injective hword]
  next r s =>
    have hcount : r.count = s.count := by simpa [payload?] using h
    rw [← r.clamp_count, ← s.clamp_count, hcount]
  · rfl

theorem Node.write_injective : Function.Injective Node.codec.write := by
  intro m n h
  have hrecord := m.record_givesBack.unique n.record_givesBack h
  simp only [Prod.mk.injEq, and_true] at hrecord
  obtain ⟨hid, htag, hlabel, hpayload⟩ := hrecord
  have hkind : m.kind = n.kind := Kind.eq_of_payload? htag hpayload
  cases m
  cases n
  simp_all

theorem Edge.write_injective : Function.Injective Edge.codec.write := by
  intro d e h
  exact d.codec_givesBack.unique e.codec_givesBack h

theorem Graph.write_injective : Function.Injective Graph.codec.write := by
  intro g h hwrite
  obtain ⟨hnodes, hedges⟩ : g.nodes.map Node.codec.write = h.nodes.map Node.codec.write ∧
      g.edges.map Edge.codec.write = h.edges.map Edge.codec.write := by
    simpa [Graph.codec, Codec.map, Fields.codec, Graph.fields, Fields.write, Field.required,
      Field.defaulted, Codec.list, Doc.record, Doc.list] using hwrite
  have := List.map_injective_iff.mpr Node.write_injective hnodes
  have := List.map_injective_iff.mpr Edge.write_injective hedges
  cases g
  cases h
  simp_all

namespace Graph

/-- Two graphs have one compact text only if they are the same, node for node and edge for edge. They
have one fingerprint if they are the same, or else only if their texts are different and collide. -/
theorem fingerprint_separates (g h : Graph) :
    (codec.print g = codec.print h ↔ g = h) ∧
      (g.fingerprint = h.fingerprint ↔
        g = h ∨ Sha256.Collide (codec.print g).toUTF8.toList (codec.print h).toUTF8.toList) := by
  have hprint : codec.print g = codec.print h ↔ g = h := by
    constructor
    · intro heq
      exact write_injective
        (Doc.render_injective g.codec_givesBack.writable h.codec_givesBack.writable heq)
    · rintro rfl
      rfl
  refine ⟨hprint, ?_⟩
  constructor
  · intro heq
    by_cases hgraph : g = h
    · exact .inl hgraph
    · refine .inr ⟨?_, Sha256.digest_of_hexDigest heq⟩
      intro hbytes
      exact hgraph (hprint.mp (toUTF8_toList_injective hbytes))
  · rintro (rfl | ⟨-, hdigest⟩)
    · rfl
    · rw [fingerprint, fingerprint, Sha256.hexDigest, Sha256.hexDigest, hdigest]

end Graph
end Flowgraph
