import NvmeDriver.Identify
import NvmeDriver.Lib.ByteMemory
import Mathlib.Logic.Relation

/-!
# The namespace descriptor list

What `nvme_identify_ns_descs` reads of the 4096-byte response, and what a
well-formed list leaves behind.  Records have lengths the device chooses; the loop
compares only the start of a record with the end of the response, so a record that
starts close to the end is read past it.

`parseNsDescs` is the same walk without the notes.
-/

namespace NvmeDriver
namespace Namespace

open Lib

/-! ### The walk, with what it reads -/

section Walk

variable (bogusNid : Bool) (data : List Nat)

/-- The EUI64, NGUID and UUID cases of `nvme_process_ns_desc`: the payload is
copied unless the controller reports bogus identifiers. -/
def processIdentifier (pos len : Nat) (ids : NsIds) (set : List Nat → NsIds)
    (csiSeen : Bool) : Traced (Option Nat × NsIds × Bool) := do
  let nidl ← Traced.byte data (pos + 1)
  if nidl ≠ len then pure (none, ids, csiSeen)
  else if bogusNid then pure (some len, ids, csiSeen)
  else do
    let payload ← Traced.copy data (pos + 4) len
    pure (some len, set payload, csiSeen)

/-- `nvme_process_ns_desc`, of the record at `pos`. -/
def nvmeProcessNsDescReads (pos : Nat) (ids : NsIds) (csiSeen : Bool) :
    Traced (Option Nat × NsIds × Bool) := do
  let nidt ← Traced.byte data pos
  if nidt = 1 then
    processIdentifier bogusNid data pos 8 ids (fun p => { ids with eui64 := p }) csiSeen
  else if nidt = 2 then
    processIdentifier bogusNid data pos 16 ids (fun p => { ids with nguid := p }) csiSeen
  else if nidt = 3 then
    processIdentifier bogusNid data pos 16 ids (fun p => { ids with uuid := p }) csiSeen
  else do
    let nidl ← Traced.byte data (pos + 1)
    if nidt = 4 then
      if nidl ≠ 1 then pure (none, ids, csiSeen)
      else do
        let csi ← Traced.byte data (pos + 4)
        pure (some 1, { ids with csi := csi }, true)
    else pure (some nidl, ids, csiSeen)

/-- The loop of `nvme_identify_ns_descs`; no result when it has not ended after
`fuel` turns. -/
def nsDescLoop : Nat → Nat → NsIds → Bool → Traced (Option (NsIds × Bool))
  | 0, _, _, _ => pure none
  | fuel + 1, pos, ids, csiSeen =>
      if identifyDataSize ≤ pos then pure (some (ids, csiSeen))
      else do
        let nidl ← Traced.byte data (pos + 1)
        if nidl = 0 then pure (some (ids, csiSeen))
        else do
          let r ← nvmeProcessNsDescReads bogusNid data pos ids csiSeen
          match r.1 with
          | none => pure (some r.2)
          | some len => nsDescLoop fuel (pos + (len + 4)) r.2.1 r.2.2

end Walk

/-! ### Where the walk goes -/

section Positions

variable {bogusNid : Bool} {data : List Nat}

/-- The length a record of a known type has to have. -/
def knownLength (nidt : Nat) : Option Nat :=
  if nidt = 1 then some 8
  else if nidt = 2 ∨ nidt = 3 then some 16
  else if nidt = 4 then some 1
  else none

/-- A record whose type, if it is known, has the length that belongs to it. -/
def ValidLength (nidt nidl : Nat) : Prop := ∀ len, knownLength nidt = some len → nidl = len

/-- The type and length bytes of the record at an offset. -/
def nidtAt (data : List Nat) (pos : Nat) : Nat := data.getD pos 0

def nidlAt (data : List Nat) (pos : Nat) : Nat := data.getD (pos + 1) 0

/-- The walk goes on from the record at `pos` to the one at `pos'`. -/
def Next (data : List Nat) (pos pos' : Nat) : Prop :=
  pos < identifyDataSize ∧ nidlAt data pos ≠ 0 ∧ ValidLength (nidtAt data pos) (nidlAt data pos) ∧
    pos' = pos + (nidlAt data pos + 4)

/-- The payload of the record is copied: CSI always, the identifiers unless they are
known to be bogus. -/
def Copies (bogusNid : Bool) (data : List Nat) (pos : Nat) : Prop :=
  nidlAt data pos ≠ 0 ∧ ∃ len, knownLength (nidtAt data pos) = some len ∧
    nidlAt data pos = len ∧ (bogusNid = false ∨ nidtAt data pos = 4)

/-- The record at `pos`, if the walk looks at it, has its type and length bytes inside
the response, and its payload too if it is copied. -/
def Inside (bogusNid : Bool) (data : List Nat) (pos : Nat) : Prop :=
  pos < identifyDataSize → pos + 2 ≤ identifyDataSize ∧
    (Copies bogusNid data pos → pos + 4 + nidlAt data pos ≤ identifyDataSize)

/-- Every record the walk comes to from `pos` lies inside the response. -/
def InsideFrom (bogusNid : Bool) (data : List Nat) (pos : Nat) : Prop :=
  ∀ p, Relation.ReflTransGen (Next data) pos p → Inside bogusNid data p

theorem insideFrom_iff (pos : Nat) :
    InsideFrom bogusNid data pos ↔ Inside bogusNid data pos ∧
      ∀ pos', Next data pos pos' → InsideFrom bogusNid data pos' := by
  constructor
  · intro h
    refine ⟨h pos .refl, fun pos' hnext p hp => h p (.head hnext hp)⟩
  · rintro ⟨hhere, hrest⟩ p hp
    rcases hp.cases_head with rfl | ⟨pos', hnext, hp⟩
    · exact hhere
    · exact hrest pos' hnext p hp

end Positions

/-! ### One record -/

section Record

variable {bogusNid : Bool} {data : List Nat} {pos len : Nat} {ids : NsIds} {csiSeen : Bool}
  {set : List Nat → NsIds}

theorem byte_nidt : (Traced.byte data pos).value = nidtAt data pos := rfl

theorem byte_nidl : (Traced.byte data (pos + 1)).value = nidlAt data pos := rfl

theorem processIdentifier_within {n : Nat} (hne : len ≠ 0) :
    (processIdentifier bogusNid data pos len ids set csiSeen).Within n ↔
      pos + 1 < n ∧ (nidlAt data pos = len ∧ bogusNid = false → pos + 4 + len ≤ n) := by
  rw [processIdentifier, Traced.within_bind_iff, Traced.within_byte, byte_nidl]
  refine and_congr_right fun _ => ?_
  by_cases hlen : nidlAt data pos = len
  · rw [if_neg (fun h => h hlen)]
    cases bogusNid with
    | true => exact iff_of_true (Traced.within_pure _ _) fun h => nomatch h.2
    | false =>
        rw [if_neg Bool.false_ne_true, Traced.within_bind_iff, Traced.within_copy]
        constructor
        · exact fun h _ => h.1.resolve_left hne
        · exact fun h => ⟨.inr (h ⟨hlen, rfl⟩), Traced.within_pure _ _⟩
  · rw [if_pos hlen]
    exact iff_of_true (Traced.within_pure _ _) fun h => absurd h.1 hlen

theorem processIdentifier_value :
    (processIdentifier bogusNid data pos len ids set csiSeen).value =
      if nidlAt data pos ≠ len then (none, ids, csiSeen)
      else if bogusNid then (some len, ids, csiSeen)
      else (some len, set ((data.drop (pos + 4)).take len), csiSeen) := by
  rw [processIdentifier, Traced.value_bind, byte_nidl]
  by_cases hlen : nidlAt data pos = len
  · have hright : ¬nidlAt data pos ≠ len := fun h => h hlen
    rw [if_neg hright, if_neg hright]
    cases bogusNid with
    | true => rfl
    | false => rfl
  · rw [if_pos hlen, if_pos hlen]
    rfl

theorem processIdentifier_next :
    (processIdentifier bogusNid data pos len ids set csiSeen).value.1 =
      if nidlAt data pos = len then some (nidlAt data pos) else none := by
  rw [processIdentifier_value]
  by_cases hlen : nidlAt data pos = len
  · rw [if_neg (fun h => h hlen), if_pos hlen, hlen]
    split
    · rfl
    · rfl
  · rw [if_pos hlen, if_neg hlen]

/-- The notes change nothing. -/
theorem nvmeProcessNsDescReads_value :
    (nvmeProcessNsDescReads bogusNid data pos ids csiSeen).value =
      nvmeProcessNsDesc bogusNid data pos ids csiSeen := by
  rw [nvmeProcessNsDescReads, nvmeProcessNsDesc, Traced.value_bind, Traced.value_byte]
  dsimp only
  split
  · exact processIdentifier_value
  · split
    · exact processIdentifier_value
    · split
      · exact processIdentifier_value
      · rw [Traced.value_bind, Traced.value_byte]
        split
        · split
          · rfl
          · rfl
        · rfl

instance (nidt nidl : Nat) : Decidable (ValidLength nidt nidl) :=
  decidable_of_iff (∀ len ∈ knownLength nidt, nidl = len) Iff.rfl

/-- A record is passed when its length is right. -/
theorem nvmeProcessNsDescReads_next :
    (nvmeProcessNsDescReads bogusNid data pos ids csiSeen).value.1 =
      if ValidLength (nidtAt data pos) (nidlAt data pos) then some (nidlAt data pos)
      else none := by
  have hknown : ∀ {t l : Nat}, nidtAt data pos = t → knownLength t = some l →
      (ValidLength (nidtAt data pos) (nidlAt data pos) ↔ nidlAt data pos = l) := by
    intro t l ht hl
    rw [ValidLength, ht, hl]
    exact ⟨fun h => h l rfl, fun h len heq => h.trans (Option.some.inj heq)⟩
  rw [nvmeProcessNsDescReads, Traced.value_bind, byte_nidt]
  split
  · rename_i h
    rw [processIdentifier_next]
    exact if_congr (hknown h rfl).symm rfl rfl
  · split
    · rename_i h
      rw [processIdentifier_next]
      exact if_congr (hknown h rfl).symm rfl rfl
    · split
      · rename_i h
        rw [processIdentifier_next]
        exact if_congr (hknown h rfl).symm rfl rfl
      · rename_i h1 h2 h3
        rw [Traced.value_bind, byte_nidl]
        split
        · rename_i h
          by_cases hlen : nidlAt data pos = 1
          · rw [if_neg (fun h => h hlen), if_pos ((hknown h rfl).mpr hlen), hlen]
            rfl
          · rw [if_pos hlen, if_neg (fun hv => hlen ((hknown h rfl).mp hv))]
            rfl
        · rename_i h4
          have hany : ValidLength (nidtAt data pos) (nidlAt data pos) := by
            intro len hlen
            simp [knownLength, h1, h2, h3, h4] at hlen
          rw [if_pos hany]
          rfl

/-- What the record makes the driver read. -/
theorem nvmeProcessNsDescReads_within {n : Nat} (hne : nidlAt data pos ≠ 0) :
    (nvmeProcessNsDescReads bogusNid data pos ids csiSeen).Within n ↔
      pos + 1 < n ∧ (Copies bogusNid data pos → pos + 4 + nidlAt data pos ≤ n) := by
  have hidentifier : ∀ {t l : Nat} {set : List Nat → NsIds}, nidtAt data pos = t → t ≠ 4 →
      knownLength t = some l → l ≠ 0 →
      (pos < n ∧ (processIdentifier bogusNid data pos l ids set csiSeen).Within n ↔
        pos + 1 < n ∧ (Copies bogusNid data pos → pos + 4 + nidlAt data pos ≤ n)) := by
    intro t l set ht hcsi hl hpos
    have hcopies : Copies bogusNid data pos ↔ nidlAt data pos = l ∧ bogusNid = false := by
      rw [Copies, ht, hl]
      constructor
      · rintro ⟨-, len, heq, hlen, hbogus⟩
        exact ⟨hlen.trans (Option.some.inj heq).symm, hbogus.resolve_right hcsi⟩
      · rintro ⟨hlen, hbogus⟩
        exact ⟨hne, l, rfl, hlen, .inl hbogus⟩
    rw [processIdentifier_within hpos, hcopies]
    constructor
    · rintro ⟨-, hin, hcopy⟩
      exact ⟨hin, fun h => h.1 ▸ hcopy h⟩
    · rintro ⟨hin, hcopy⟩
      exact ⟨by omega, hin, fun h => h.1 ▸ hcopy h⟩
  rw [nvmeProcessNsDescReads, Traced.within_bind_iff, Traced.within_byte, byte_nidt]
  split
  · rename_i h
    exact hidentifier h (by decide) rfl (by decide)
  · split
    · rename_i h
      exact hidentifier h (by decide) rfl (by decide)
    · split
      · rename_i h
        exact hidentifier h (by decide) rfl (by decide)
      · rename_i h1 h2 h3
        rw [Traced.within_bind_iff, Traced.within_byte, byte_nidl]
        split
        · rename_i h4
          by_cases hlen : nidlAt data pos = 1
          · have hcopied : Copies bogusNid data pos := by
              refine ⟨hne, 1, ?_, hlen, .inr h4⟩
              rw [h4]
              rfl
            have hright : ¬nidlAt data pos ≠ 1 := fun h => h hlen
            rw [if_neg hright, Traced.within_bind_iff, Traced.within_byte]
            constructor
            · exact fun h => ⟨h.2.1, fun _ => by rw [hlen]; exact h.2.2.1⟩
            · rintro ⟨hin, hcopy⟩
              have hlast := hcopy hcopied
              exact ⟨by omega, hin, by omega, Traced.within_pure _ _⟩
          · have hskipped : ¬Copies bogusNid data pos := by
              rintro ⟨-, len, hknown, hsame, -⟩
              rw [h4] at hknown
              exact hlen (hsame.trans (Option.some.inj hknown).symm)
            rw [if_pos hlen]
            constructor
            · exact fun h => ⟨h.2.1, fun hc => absurd hc hskipped⟩
            · exact fun h => ⟨by omega, h.1, Traced.within_pure _ _⟩
        · rename_i h4
          have hskipped : ¬Copies bogusNid data pos := by
            rintro ⟨-, len, hlen, -⟩
            simp [knownLength, h1, h2, h3, h4] at hlen
          constructor
          · exact fun h => ⟨h.2.1, fun hc => absurd hc hskipped⟩
          · exact fun h => ⟨by omega, h.1, Traced.within_pure _ _⟩

end Record

/-! ### The loop -/

section Loop

variable {bogusNid : Bool} {data : List Nat} {fuel pos : Nat} {ids : NsIds} {csiSeen : Bool}

theorem nsDescLoop_stop (h : identifyDataSize ≤ pos) :
    nsDescLoop bogusNid data (fuel + 1) pos ids csiSeen = pure (some (ids, csiSeen)) := by
  rw [nsDescLoop, if_pos h]

/-- A record of length zero ends the list. -/
theorem nsDescLoop_zero (hpos : pos < identifyDataSize) (hzero : nidlAt data pos = 0) :
    nsDescLoop bogusNid data (fuel + 1) pos ids csiSeen =
      (do
        let _ ← Traced.byte data (pos + 1)
        pure (some (ids, csiSeen))) := by
  rw [nsDescLoop, if_neg (Nat.not_le.mpr hpos)]
  refine Traced.bind_congr ?_
  rw [byte_nidl, if_pos hzero]

/-- So does one whose length is wrong for its type; every other record is passed. -/
theorem nsDescLoop_turn (hpos : pos < identifyDataSize) (hne : nidlAt data pos ≠ 0) :
    nsDescLoop bogusNid data (fuel + 1) pos ids csiSeen =
      (do
        let _ ← Traced.byte data (pos + 1)
        let r ← nvmeProcessNsDescReads bogusNid data pos ids csiSeen
        if ValidLength (nidtAt data pos) (nidlAt data pos) then
          nsDescLoop bogusNid data fuel (pos + (nidlAt data pos + 4)) r.2.1 r.2.2
        else pure (some r.2)) := by
  have hnext := @nvmeProcessNsDescReads_next bogusNid data pos ids csiSeen
  rw [nsDescLoop, if_neg (Nat.not_le.mpr hpos)]
  refine Traced.bind_congr ?_
  rw [byte_nidl, if_neg hne]
  refine Traced.bind_congr ?_
  split at hnext
  · rename_i hvalid
    rw [hnext, if_pos hvalid]
  · rename_i hwrong
    rw [hnext, if_neg hwrong]

/-- Every turn moves on by five bytes at least, so the loop ends, with the result of
the walk without notes. -/
theorem nsDescLoop_value (h : identifyDataSize ≤ pos + 5 * fuel) :
    (nsDescLoop bogusNid data (fuel + 1) pos ids csiSeen).value =
      some (parseNsDescs bogusNid data (fuel + 1) pos ids csiSeen) := by
  induction fuel generalizing pos ids csiSeen with
  | zero =>
      rw [nsDescLoop_stop (by omega), parseNsDescs, if_pos (by omega)]
      rfl
  | succ fuel ih =>
      rcases Nat.lt_or_ge pos identifyDataSize with hpos | hpos
      · have hnot : ¬identifyDataSize ≤ pos := Nat.not_le.mpr hpos
        rw [parseNsDescs, if_neg hnot]
        change _ = some (if nidlAt data pos = 0 then _ else _)
        by_cases hne : nidlAt data pos = 0
        · rw [nsDescLoop_zero hpos hne, if_pos hne]
          rfl
        · have hnext := @nvmeProcessNsDescReads_next bogusNid data pos ids csiSeen
          rw [nsDescLoop_turn hpos hne, if_neg hne, Traced.value_bind, Traced.value_bind]
          rw [nvmeProcessNsDescReads_value] at hnext ⊢
          generalize nvmeProcessNsDesc bogusNid data pos ids csiSeen = r at hnext ⊢
          obtain ⟨len, ids₁, seen₁⟩ := r
          by_cases hvalid : ValidLength (nidtAt data pos) (nidlAt data pos)
          · rw [if_pos hvalid] at hnext ⊢
            cases hnext
            exact ih (by omega)
          · rw [if_neg hvalid] at hnext ⊢
            cases hnext
            rfl
      · rw [nsDescLoop_stop hpos, parseNsDescs, if_pos hpos]
        rfl

/-- The loop reads inside the response exactly when every record it comes to lies
inside. -/
theorem nsDescLoop_within (h : identifyDataSize ≤ pos + 5 * fuel) :
    (nsDescLoop bogusNid data (fuel + 1) pos ids csiSeen).Within identifyDataSize ↔
      InsideFrom bogusNid data pos := by
  induction fuel generalizing pos ids csiSeen with
  | zero =>
      have hpos : identifyDataSize ≤ pos := by omega
      rw [nsDescLoop_stop hpos, insideFrom_iff]
      refine iff_of_true (Traced.within_pure _ _) ⟨fun hlt => absurd hlt (by omega), ?_⟩
      exact fun _ hnext => absurd hnext.1 (by omega)
  | succ fuel ih =>
      rw [insideFrom_iff]
      rcases Nat.lt_or_ge pos identifyDataSize with hpos | hpos
      · by_cases hne : nidlAt data pos = 0
        · rw [nsDescLoop_zero hpos hne, Traced.within_bind_iff, Traced.within_byte]
          constructor
          · exact fun hin => ⟨fun _ => ⟨hin.1, fun hc => absurd hne hc.1⟩,
              fun _ hnext => absurd hne hnext.2.1⟩
          · exact fun hin => ⟨(hin.1 hpos).1, Traced.within_pure _ _⟩
        · have hrecord := @nvmeProcessNsDescReads_within bogusNid data pos ids csiSeen
            identifyDataSize hne
          rw [nsDescLoop_turn hpos hne, Traced.within_bind_iff, Traced.within_byte,
            Traced.within_bind_iff, hrecord]
          by_cases hvalid : ValidLength (nidtAt data pos) (nidlAt data pos)
          · rw [if_pos hvalid, ih (by omega)]
            constructor
            · rintro ⟨hin, hhere, hrest⟩
              refine ⟨fun _ => ⟨hin, hhere.2⟩, ?_⟩
              rintro pos' ⟨-, -, -, rfl⟩
              exact hrest
            · rintro ⟨hhere, hrest⟩
              exact ⟨(hhere hpos).1, ⟨(hhere hpos).1, (hhere hpos).2⟩,
                hrest _ ⟨hpos, hne, hvalid, rfl⟩⟩
          · rw [if_neg hvalid]
            constructor
            · rintro ⟨hin, hhere, -⟩
              exact ⟨fun _ => ⟨hin, hhere.2⟩, fun _ hnext => absurd hnext.2.2.1 hvalid⟩
            · rintro ⟨hhere, -⟩
              exact ⟨(hhere hpos).1, ⟨(hhere hpos).1, (hhere hpos).2⟩, Traced.within_pure _ _⟩
      · rw [nsDescLoop_stop hpos]
        refine iff_of_true (Traced.within_pure _ _) ⟨fun hlt => absurd hlt (by omega), ?_⟩
        exact fun _ hnext => absurd hnext.1 (by omega)

end Loop

/-! ### Well-formed lists -/

/-- A record as the specification has it: a payload that is not empty, of the length
that belongs to its type. -/
structure NsDesc where
  nidt : Nat
  reserved₀ : Nat
  reserved₁ : Nat
  payload : List Nat
  nonempty : payload.length ≠ 0
  valid : ValidLength nidt payload.length

/-- The bytes of a record. -/
def NsDesc.bytes (d : NsDesc) : List Nat :=
  d.nidt :: d.payload.length :: d.reserved₀ :: d.reserved₁ :: d.payload

/-- A response that holds these records and then a record of length zero, or nothing. -/
def WellFormed (data : List Nat) (ds : List NsDesc) : Prop :=
  data.length = identifyDataSize ∧ ∃ tail, data = ds.flatMap NsDesc.bytes ++ tail ∧
    (tail = [] ∨ ∃ nidt rest, tail = nidt :: 0 :: rest)

/-- What one record does to the identifiers and to `csi_seen`. -/
def NsDesc.apply (bogusNid : Bool) (p : NsIds × Bool) (d : NsDesc) : NsIds × Bool :=
  let keep := fun (nidt : Nat) (old : List Nat) =>
    if d.nidt = nidt ∧ bogusNid = false then d.payload else old
  ({ eui64 := keep 1 p.1.eui64, nguid := keep 2 p.1.nguid, uuid := keep 3 p.1.uuid
     csi := if d.nidt = 4 then d.payload.headD 0 else p.1.csi },
    if d.nidt = 4 then true else p.2)

/-- The payload of the last record of a type. -/
def lastOf (nidt : Nat) (ds : List NsDesc) : Option (List Nat) :=
  ((ds.filter fun d => d.nidt = nidt).getLast?).map NsDesc.payload

/-- The identifiers are those of the last records of their types, or what they were;
the command set is set whether identifiers are bogus or not. -/
structure Leaves (bogusNid : Bool) (ds : List NsDesc) (ids : NsIds) (out : NsIds × Bool) :
    Prop where
  eui64 : out.1.eui64 = if bogusNid then ids.eui64 else (lastOf 1 ds).getD ids.eui64
  nguid : out.1.nguid = if bogusNid then ids.nguid else (lastOf 2 ds).getD ids.nguid
  uuid : out.1.uuid = if bogusNid then ids.uuid else (lastOf 3 ds).getD ids.uuid
  csi : out.1.csi = ((lastOf 4 ds).map fun p => p.headD 0).getD ids.csi
  csiSeen : out.2 = true ↔ ∃ d, d ∈ ds ∧ d.nidt = 4

section Lists

variable {bogusNid : Bool} {data : List Nat} {ids : NsIds} {csiSeen : Bool} {pos : Nat}

theorem lastOf_append (nidt : Nat) (ds : List NsDesc) (d : NsDesc) :
    lastOf nidt (ds ++ [d]) = if d.nidt = nidt then some d.payload else lastOf nidt ds := by
  rw [lastOf, List.filter_append]
  by_cases h : d.nidt = nidt
  · have hone : [d].filter (fun d => d.nidt = nidt) = [d] := by simp [h]
    rw [hone, List.getLast?_concat, if_pos h]
    rfl
  · have hnone : [d].filter (fun d => d.nidt = nidt) = [] := by simp [h]
    rw [hnone, List.append_nil, if_neg h]
    rfl

theorem identifier_step {nidt : Nat} {ds : List NsDesc} {d : NsDesc} {old x : List Nat}
    (h : x = if bogusNid then old else (lastOf nidt ds).getD old) :
    (if d.nidt = nidt ∧ bogusNid = false then d.payload else x) =
      if bogusNid then old else (lastOf nidt (ds ++ [d])).getD old := by
  cases bogusNid with
  | true =>
      rw [if_neg fun hboth => Bool.noConfusion hboth.2]
      exact h
  | false =>
      rw [lastOf_append]
      by_cases htype : d.nidt = nidt
      · rw [if_pos ⟨htype, rfl⟩, if_pos htype]
        rfl
      · rw [if_neg fun hboth => htype hboth.1, if_neg htype]
        exact h

theorem csi_step {ds : List NsDesc} {d : NsDesc} {old x : Nat}
    (h : x = ((lastOf 4 ds).map fun p => p.headD 0).getD old) :
    (if d.nidt = 4 then d.payload.headD 0 else x) =
      ((lastOf 4 (ds ++ [d])).map fun p => p.headD 0).getD old := by
  rw [lastOf_append]
  split
  · rfl
  · exact h

theorem csiSeen_step {ds : List NsDesc} {d : NsDesc} {seen : Bool}
    (h : seen = true ↔ ∃ d, d ∈ ds ∧ d.nidt = 4) :
    (if d.nidt = 4 then true else seen) = true ↔ ∃ e, e ∈ ds ++ [d] ∧ e.nidt = 4 := by
  split
  · rename_i htype
    exact iff_of_true rfl ⟨d, List.mem_append_right _ (List.mem_singleton_self d), htype⟩
  · rename_i htype
    rw [h]
    constructor
    · rintro ⟨e, he, hcsi⟩
      exact ⟨e, List.mem_append_left _ he, hcsi⟩
    · rintro ⟨e, he, hcsi⟩
      rcases List.mem_append.mp he with he | he
      · exact ⟨e, he, hcsi⟩
      · rw [List.mem_singleton.mp he] at hcsi
        exact absurd hcsi htype

/-- One record after the other leaves the last of each type. -/
theorem leaves_foldl (ds : List NsDesc) :
    Leaves bogusNid ds ids (ds.foldl (NsDesc.apply bogusNid) (ids, false)) := by
  induction ds using List.reverseRecOn with
  | nil => constructor <;> simp [lastOf]
  | append_singleton ds d ih =>
      rw [List.foldl_append]
      constructor
      case eui64 => exact identifier_step ih.eui64
      case nguid => exact identifier_step ih.nguid
      case uuid => exact identifier_step ih.uuid
      case csi => exact csi_step ih.csi
      case csiSeen => exact csiSeen_step ih.csiSeen

theorem getD_drop (i : Nat) : data.getD (pos + i) 0 = (data.drop pos).getD i 0 := by
  rw [List.getD_eq_getElem?_getD, List.getD_eq_getElem?_getD, List.getElem?_drop]

/-- The record at an offset, and what is behind it. -/
theorem record_at {d : NsDesc} {rest : List Nat} (h : data.drop pos = d.bytes ++ rest) :
    nidtAt data pos = d.nidt ∧ nidlAt data pos = d.payload.length ∧
      (data.drop (pos + 4)).take d.payload.length = d.payload ∧
      data.getD (pos + 4) 0 = d.payload.headD 0 ∧
      data.drop (pos + (d.payload.length + 4)) = rest := by
  have hfour : data.drop (pos + 4) = d.payload ++ rest := by
    rw [← List.drop_drop, h]
    rfl
  refine ⟨?_, ?_, ?_, ?_, ?_⟩
  · have hzero := @getD_drop data pos 0
    rw [Nat.add_zero, h] at hzero
    exact hzero
  · have hone := @getD_drop data pos 1
    rw [h] at hone
    exact hone
  · rw [hfour, List.take_left]
  · have hpayload := @getD_drop data (pos + 4) 0
    rw [Nat.add_zero, hfour] at hpayload
    rw [hpayload]
    cases hp : d.payload with
    | nil => exact absurd (by rw [hp]; rfl) d.nonempty
    | cons x xs => rfl
  · have hsum : pos + (d.payload.length + 4) = pos + 4 + d.payload.length := by omega
    rw [hsum, ← List.drop_drop, hfour, List.drop_left]

theorem nvmeProcessNsDesc_record {d : NsDesc} {rest : List Nat}
    (h : data.drop pos = d.bytes ++ rest) :
    nvmeProcessNsDesc bogusNid data pos ids csiSeen =
      (some d.payload.length, d.apply bogusNid (ids, csiSeen)) := by
  obtain ⟨htype, hlen, hpayload, hcsi, -⟩ := record_at h
  have hknown : ∀ {len : Nat}, knownLength d.nidt = some len → d.payload.length = len :=
    fun hl => d.valid _ hl
  rw [nidtAt] at htype
  rw [nidlAt] at hlen
  simp only [nvmeProcessNsDesc, NsDesc.apply, htype, hlen, hcsi]
  by_cases h1 : d.nidt = 1
  · have hl : d.payload.length = 8 := hknown (by rw [h1]; rfl)
    rw [hl] at hpayload
    cases bogusNid <;> simp [h1, hl, hpayload]
  by_cases h2 : d.nidt = 2
  · have hl : d.payload.length = 16 := hknown (by rw [h2]; rfl)
    rw [hl] at hpayload
    cases bogusNid <;> simp [h2, hl, hpayload]
  by_cases h3 : d.nidt = 3
  · have hl : d.payload.length = 16 := hknown (by rw [h3]; rfl)
    rw [hl] at hpayload
    cases bogusNid <;> simp [h3, hl, hpayload]
  by_cases h4 : d.nidt = 4
  · have hl : d.payload.length = 1 := hknown (by rw [h4]; rfl)
    simp [h4, hl]
  · simp [h1, h2, h3, h4]

/-- A well-formed list is walked record by record. -/
theorem parseNsDescs_records (ds : List NsDesc) {tail : List Nat} {fuel : Nat}
    (hdata : data.length = identifyDataSize) (h : data.drop pos = ds.flatMap NsDesc.bytes ++ tail)
    (htail : tail = [] ∨ ∃ nidt rest, tail = nidt :: 0 :: rest)
    (hfuel : identifyDataSize ≤ pos + 5 * fuel) :
    parseNsDescs bogusNid data (fuel + 1) pos ids csiSeen =
      ds.foldl (NsDesc.apply bogusNid) (ids, csiSeen) := by
  induction ds generalizing pos ids csiSeen fuel with
  | nil =>
      rw [List.flatMap_nil, List.nil_append] at h
      rw [parseNsDescs]
      rcases htail with rfl | ⟨nidt, rest, rfl⟩
      · have hend := List.drop_eq_nil_iff.mp h
        rw [if_pos (by omega)]
        rfl
      · have hzero := @getD_drop data pos 1
        rw [h] at hzero
        split
        · rfl
        · exact if_pos hzero
  | cons d ds ih =>
      rw [List.flatMap_cons, List.append_assoc] at h
      obtain ⟨-, hlen, -, -, hrest⟩ := record_at h
      have hpos : pos < identifyDataSize := by
        by_contra hend
        rw [List.drop_eq_nil_iff.mpr (by omega)] at h
        cases h
      have hne : ¬data.getD (pos + 1) 0 = 0 := by
        intro hzero
        exact d.nonempty (hlen.symm.trans hzero)
      rw [parseNsDescs, if_neg (Nat.not_le.mpr hpos), if_neg hne, nvmeProcessNsDesc_record h]
      obtain ⟨fuel, rfl⟩ : ∃ k, fuel = k + 1 := ⟨fuel - 1, by omega⟩
      have hnonempty := d.nonempty
      exact ih hrest (by omega)

/-- The walk comes to the end of any records it can pass. -/
theorem visits_records (ds : List NsDesc) {tail : List Nat}
    (hdata : data.length = identifyDataSize)
    (h : data.drop pos = ds.flatMap NsDesc.bytes ++ tail) :
    Relation.ReflTransGen (Next data) pos (pos + (ds.flatMap NsDesc.bytes).length) := by
  induction ds generalizing pos with
  | nil => exact .refl
  | cons d ds ih =>
      rw [List.flatMap_cons, List.append_assoc] at h
      obtain ⟨htype, hlen, -, -, hrest⟩ := record_at h
      have hpos : pos < identifyDataSize := by
        by_contra hend
        rw [List.drop_eq_nil_iff.mpr (by omega)] at h
        cases h
      have hsum : pos + ((d :: ds).flatMap NsDesc.bytes).length =
          pos + (d.payload.length + 4) + (ds.flatMap NsDesc.bytes).length := by
        rw [List.flatMap_cons, List.length_append, NsDesc.bytes]
        simp only [List.length_cons]
        omega
      rw [hsum]
      refine .head ⟨hpos, ?_, ?_, ?_⟩ (ih hrest)
      · rw [hlen]
        exact d.nonempty
      · rw [htype, hlen]
        exact d.valid
      · rw [hlen]

end Lists

/-! ### Memory safety and totality -/

/-- The loop ends within `fuel` turns, has read nothing beyond the response, and has
left what a well-formed list says. -/
structure ParserSafe (bogusNid : Bool) (data : List Nat) (ids : NsIds) (fuel : Nat) : Prop where
  ends : ∃ out, (nsDescLoop bogusNid data fuel 0 ids false).value = some out ∧
    ∀ ds, WellFormed data ds → Leaves bogusNid ds ids out
  inside : (nsDescLoop bogusNid data fuel 0 ids false).Within identifyDataSize

/-- For any response and any quirks the loop ends with the right identifiers; it stays
inside the response exactly when every record it comes to does. -/
theorem ns_descs_safe_iff (bogusNid : Bool) (data : List Nat) (ids : NsIds) :
    (∀ fuel, identifyDataSize ≤ fuel → ParserSafe bogusNid data ids fuel) ↔
      InsideFrom bogusNid data 0 := by
  constructor
  · intro h
    have henough : identifyDataSize ≤ 0 + 5 * 4095 := by decide
    exact (nsDescLoop_within henough).mp (h 4096 (Nat.le_refl _)).inside
  · intro h fuel hfuel
    obtain ⟨fuel, rfl⟩ : ∃ k, fuel = k + 1 := ⟨fuel - 1, by
      simp only [identifyDataSize] at hfuel
      omega⟩
    have henough : identifyDataSize ≤ 0 + 5 * fuel := by
      simp only [identifyDataSize] at *
      omega
    refine ⟨⟨_, nsDescLoop_value henough, ?_⟩, (nsDescLoop_within henough).mpr h⟩
    rintro ds ⟨hdata, tail, heq, htail⟩
    have hdrop : data.drop 0 = ds.flatMap NsDesc.bytes ++ tail := heq
    rw [parseNsDescs_records ds hdata hdrop htail henough]
    exact leaves_foldl ds

/-- A record of an unknown type. -/
def vendorDesc (n : Nat) (h : n ≠ 0) : NsDesc where
  nidt := 0x7F
  reserved₀ := 0
  reserved₁ := 0
  payload := List.replicate n 0
  nonempty := by simpa using h
  valid := fun _ hlen => nomatch hlen

theorem vendorDesc_length (n : Nat) (h : n ≠ 0) : (vendorDesc n h).bytes.length = n + 4 := by
  simp [NsDesc.bytes, vendorDesc]

/-- Sixteen records of unknown types, 4092 bytes. -/
def vendorDescs : List NsDesc :=
  List.replicate 15 (vendorDesc 255 (by decide)) ++ [vendorDesc 203 (by decide)]

theorem vendorDescs_length : (vendorDescs.flatMap NsDesc.bytes).length = 4092 := by
  rw [vendorDescs, List.flatMap_append, List.length_append, List.length_flatMap,
    List.map_replicate, List.sum_replicate, vendorDesc_length, List.flatMap_singleton,
    vendorDesc_length]
  rfl

/-- Those records, then the four bytes of an EUI64 header. -/
def cutEui64 : List Nat := vendorDescs.flatMap NsDesc.bytes ++ [1, 8, 0, 0]

/-- The eight bytes of the identifier are taken from behind the response. -/
theorem eui64_read_past_end :
    ¬∀ fuel, identifyDataSize ≤ fuel → ParserSafe false cutEui64 NsIds.zero fuel := by
  intro h
  have hdata : cutEui64.length = identifyDataSize := by
    rw [cutEui64, List.length_append, vendorDescs_length]
    rfl
  have hend : cutEui64.drop 4092 = [1, 8, 0, 0] := by
    rw [cutEui64, ← vendorDescs_length, List.drop_left]
  have hstart : cutEui64.drop 0 = vendorDescs.flatMap NsDesc.bytes ++ [1, 8, 0, 0] := by
    rw [List.drop_zero, cutEui64]
  have hvisits := visits_records vendorDescs hdata hstart
  rw [vendorDescs_length, Nat.zero_add] at hvisits
  have htype : nidtAt cutEui64 4092 = 1 := by
    have hzero := @getD_drop cutEui64 4092 0
    rw [hend] at hzero
    exact hzero
  have hlen : nidlAt cutEui64 4092 = 8 := by
    have hone := @getD_drop cutEui64 4092 1
    rw [hend] at hone
    exact hone
  have henough : identifyDataSize ≤ 0 + 5 * 4095 := by decide
  have hinside := (nsDescLoop_within henough).mp (h 4096 (Nat.le_refl _)).inside 4092 hvisits
  have hknown : knownLength (nidtAt cutEui64 4092) = some 8 := by
    rw [htype]
    rfl
  have hlast := (hinside (by decide)).2 ⟨by rw [hlen]; decide, 8, hknown, hlen, .inl rfl⟩
  rw [hlen] at hlast
  exact absurd hlast (by decide)

end Namespace
end NvmeDriver
