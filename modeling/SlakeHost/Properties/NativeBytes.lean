import SlakeHost.Lib.Delimited
import SlakeHost.Properties.ToolCode

/-!
# What the bytes of a native function say

The encoding writes the length of every text and list in front of it in four
bytes, and a type ends by itself. Where the lengths fit, the bytes determine the
function, whatever follows them.
-/
namespace SlakeHost.ToolElf

open Delimited Endian

/-- A length that four bytes hold. -/
def FitsU32 (n : Nat) : Prop := n < 2 ^ 32

instance (n : Nat) : Decidable (FitsU32 n) := inferInstanceAs (Decidable (n < 2 ^ 32))

theorem delimits_u32le : Delimits encodeU32le FitsU32 := by
  refine delimits_of_width (fun m n => rfl) ?_
  intro m n hm hn same
  rw [← le_encodeU32le m hm, ← le_encodeU32le n hn, same]

theorem toUTF8_inj {s t : String} (same : toUTF8 s = toUTF8 t) : s = t :=
  String.toByteArray_inj.mp (ByteArray.ext (Array.toList_inj.mp same))

def TextFits (s : String) : Prop := FitsU32 (toUTF8 s).length

instance (s : String) : Decidable (TextFits s) := inferInstanceAs (Decidable (FitsU32 _))

theorem delimits_lenStr : Delimits encodeLenStr TextFits := by
  intro s t hs ht rest rest' same
  rw [encodeLenStr, encodeLenStr, List.append_assoc, List.append_assoc] at same
  obtain ⟨lengths, others⟩ := delimits_u32le hs ht same
  -- Equal lengths in front make the two texts as long as each other.
  obtain ⟨bytes, behind⟩ := List.append_inj others lengths
  exact ⟨toUTF8_inj bytes, behind⟩

/-- Each type begins with its own tag, and only `io` has more behind it. -/
theorem delimits_ty : Delimits NativeTy.encode fun _ => True := by
  intro t
  induction t with
  | u32 =>
    intro t' _ _ rest rest' same
    cases t' with
    | u32 => exact ⟨rfl, (List.cons.inj same).2⟩
    | listString => exact absurd (List.cons.inj same).1 (by decide)
    | io _ => exact absurd (List.cons.inj same).1 (by decide)
  | listString =>
    intro t' _ _ rest rest' same
    cases t' with
    | u32 => exact absurd (List.cons.inj same).1 (by decide)
    | listString => exact ⟨rfl, (List.cons.inj same).2⟩
    | io _ => exact absurd (List.cons.inj same).1 (by decide)
  | io t ih =>
    intro t' _ _ rest rest' same
    cases t' with
    | u32 => exact absurd (List.cons.inj same).1 (by decide)
    | listString => exact absurd (List.cons.inj same).1 (by decide)
    | io t' =>
      obtain ⟨inner, behind⟩ := ih trivial trivial (List.cons.inj same).2
      exact ⟨congrArg NativeTy.io inner, behind⟩

def NativeInsn.Fits : NativeInsn → Prop
  | .callNamedMain callee argsBinder => TextFits callee ∧ TextFits argsBinder

theorem delimits_insn : Delimits NativeInsn.encode NativeInsn.Fits := by
  intro i j hi hj rest rest' same
  cases i with
  | callNamedMain callee args =>
    cases j with
    | callNamedMain callee' args' =>
      simp only [NativeInsn.encode, List.append_assoc] at same
      obtain ⟨callees, others⟩ := delimits_lenStr hi.1 hj.1 (List.cons.inj same).2
      obtain ⟨binders, behind⟩ := delimits_lenStr hi.2 hj.2 others
      exact ⟨by rw [callees, binders], behind⟩

/-- Every length that is written fits its four bytes. -/
structure NativeFun.Fits (f : NativeFun) : Prop where
  name : TextFits f.name
  params : FitsU32 f.params.length ∧ ∀ p ∈ f.params, TextFits p
  body : f.body.Fits

theorem NativeFun.encode_eq (f : NativeFun) (rest : Bytes) : f.encode ++ rest =
    nativeIrTag ++ (encodeLenStr f.name ++ ((encodeU32le f.params.length ++
      f.params.flatMap encodeLenStr) ++ (f.retTy.encode ++ (f.body.encode ++ rest)))) := by
  simp only [NativeFun.encode, List.flatMap_eq_foldl, List.append_assoc]

theorem NativeFun.encode_delimits : Delimits NativeFun.encode NativeFun.Fits := by
  intro f g hf hg rest rest' same
  rw [NativeFun.encode_eq, NativeFun.encode_eq] at same
  -- Field by field from the front; each leaves the bytes of those behind it.
  obtain ⟨names, others⟩ := delimits_lenStr hf.name hg.name (List.append_cancel_left same)
  obtain ⟨params, others⟩ := (delimits_u32le.counted delimits_lenStr) hf.params hg.params others
  obtain ⟨types, others⟩ := delimits_ty trivial trivial others
  obtain ⟨bodies, behind⟩ := delimits_insn hf.body hg.body others
  refine ⟨?_, behind⟩
  cases f
  cases g
  simp only at names params types bodies
  rw [names, params, types, bodies]

/-- Two functions with the same bytes are one, whatever follows them. -/
theorem NativeFun.encode_append_iff {f g : NativeFun} (hf : f.Fits) (hg : g.Fits)
    (rest rest' : Bytes) :
    f.encode ++ rest = g.encode ++ rest' ↔ f = g ∧ rest = rest' := by
  constructor
  · intro same
    exact NativeFun.encode_delimits hf hg same
  · rintro ⟨rfl, rfl⟩
    rfl

theorem nativeIrClosedSubset_fits : nativeIrClosedSubset.Fits where
  name := by decide
  params := ⟨by decide, by
    intro p member
    rw [List.mem_singleton.mp member]
    decide⟩
  body := ⟨by decide, by decide⟩

/-- The wrapper without its parameter has other bytes. -/
theorem nativeIrClosedSubset_bytes : nativeIrClosedSubset.encode ++ [] ≠
    NativeFun.encode { nativeIrClosedSubset with params := [] } ++ [] := by
  have fits := nativeIrClosedSubset_fits
  have bare : NativeFun.Fits { nativeIrClosedSubset with params := [] } :=
    ⟨fits.name, ⟨by decide, nofun⟩, fits.body⟩
  intro same
  exact absurd ((NativeFun.encode_append_iff fits bare [] []).mp same).1 (by decide)

end SlakeHost.ToolElf
