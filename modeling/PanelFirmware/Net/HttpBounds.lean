import PanelFirmware.Net.HttpServer

/-!
# `net/src/httpServerTSK.c`: what is read of a request

`netbuf_data` returns a segment and its length, and the bytes are not followed by a NUL. The length
is used for the log only, which is compiled out; what stands behind the segment is anything.

* `strncmp`, `serveRead`: the comparisons and the server, with the indices of the bytes that are
  read, counted from the start of the segment.
* `serveRead_fst`: the server that is meant is the one that `serve` describes.
* `serveRead_iff`: exactly when it reads nothing but the segment.
-/

namespace PanelFirmware.Net

open PanelFirmware.Lib

/-! ### The code -/

/-- The comparison of as many bytes as `s2` has, which stops at the first one that differs: whether
all are the same, and the indices that are read from `s1` on. Source: the C library, `strncmp`. -/
def strncmp (memory : ℕ → Byte) (s1 : ℕ) : List Byte → Bool × List ℕ
  | [] => (true, [])
  | c :: s2 =>
      if memory s1 = c then
        let rest := strncmp memory (s1 + 1) s2
        (rest.1, s1 :: rest.2)
      else (false, [s1])

/-- The answer, and the indices that are read. Every URL is compared, and of those that match the
last one is taken. Source: `httpServerTSK.c` `http_server_serve`, `httpStrcmp`. -/
def serveRead (memory : ℕ → Byte) : Option (Bool × HttpResource) × List ℕ :=
  let get := strncmp memory 0 (bytesOf "GET /")
  if get.1 then
    let urls := httpResource.map fun r => (r, strncmp memory 4 (bytesOf r.url))
    let answer :=
      match urls.reverse.find? fun url => url.2.1 with
      | some url => (true, url.1)
      | none => (false, notFound)
    (some answer, get.2 ++ urls.flatMap fun url => url.2.2)
  else
    let post := strncmp memory 0 (bytesOf "POST /\r\n")
    (none, get.2 ++ post.2)

/-- A segment, and whatever stands behind it. -/
def memoryOf (data : List Byte) (behind : ℕ → Byte) (i : ℕ) : Byte := data.getD i (behind i)

/-! ### The answer -/

/-- Bytes as characters. -/
def textFrom (memory : ℕ → Byte) (s1 n : ℕ) : List Char :=
  (List.range' s1 n).map fun i => Char.ofNat (memory i).toNat

/-- A character of a byte is that of another only if the bytes are the same. -/
lemma ofNat_eq_iff {b : Byte} {c : Char} (hc : c.toNat < 128) :
    Char.ofNat b.toNat = c ↔ b = BitVec.ofNat 8 c.toNat := by
  have hvalid : b.toNat.isValidChar := Or.inl (by omega)
  constructor
  · rintro rfl
    rw [Char.toNat_ofNat, if_pos hvalid, BitVec.ofNat_toNat, BitVec.setWidth_eq]
  · rintro rfl
    rw [BitVec.toNat_ofNat, Nat.mod_eq_of_lt (by omega), Char.ofNat_toNat]

/-- The comparison of the bytes is that of the characters. -/
lemma isPrefixOf_textFrom (memory : ℕ → Byte) {cs : List Char} (hascii : ∀ c ∈ cs, c.toNat < 128)
    {s1 n : ℕ} (hn : cs.length ≤ n) :
    cs.isPrefixOf (textFrom memory s1 n) =
      (strncmp memory s1 (cs.map fun c => BitVec.ofNat 8 c.toNat)).1 := by
  induction cs generalizing s1 n with
  | nil => rfl
  | cons c cs ih =>
      obtain ⟨hc, hcs⟩ := List.forall_mem_cons.mp hascii
      obtain ⟨k, rfl⟩ : ∃ k, n = k + 1 := ⟨n - 1, by rw [List.length_cons] at hn; omega⟩
      have hrest : cs.isPrefixOf (textFrom memory (s1 + 1) k) =
          (strncmp memory (s1 + 1) (cs.map fun c => BitVec.ofNat 8 c.toNat)).1 :=
        ih hcs (Nat.le_of_succ_le_succ hn)
      rw [textFrom, List.range'_succ, List.map_cons, List.isPrefixOf_cons_cons, List.map_cons,
        strncmp]
      rw [textFrom] at hrest
      by_cases hsame : memory s1 = BitVec.ofNat 8 c.toNat
      · rw [if_pos hsame, hrest, (ofNat_eq_iff hc).mpr hsame, beq_self_eq_true, Bool.true_and]
      · have hother : (c == Char.ofNat (memory s1).toNat) = false :=
          beq_eq_false_iff_ne.mpr fun h => hsame ((ofNat_eq_iff hc).mp h.symm)
        rw [if_neg hsame, hother, Bool.false_and]

/-- The URLs are plain text and no longer than eighteen characters. -/
lemma url_ascii : ∀ r ∈ httpResource, (∀ c ∈ r.url.toList, c.toNat < 128) ∧
    r.url.toList.length ≤ 18 := by
  simp [httpResource]

/-- **The answer is the one of `serve`**, on as many bytes as the comparisons can reach. -/
theorem serveRead_fst (memory : ℕ → Byte) {n : ℕ} (hn : 22 ≤ n) :
    (serveRead memory).1 = serve (textFrom memory 0 n) := by
  have hget : httpStrcmp (textFrom memory 0 n) "GET /" =
      (strncmp memory 0 (bytesOf "GET /")).1 := by
    have hlength : "GET /".toList.length ≤ n := le_trans (by decide) hn
    exact isPrefixOf_textFrom memory (by simp) hlength
  have hdrop : (textFrom memory 0 n).drop 4 = textFrom memory 4 (n - 4) := by
    rw [textFrom, ← List.map_drop, List.drop_range', textFrom]
  have hurl : ∀ r ∈ httpResource.reverse, httpStrcmp ((textFrom memory 0 n).drop 4) r.url =
      (strncmp memory 4 (bytesOf r.url)).1 := by
    intro r hr
    obtain ⟨hascii, hlength⟩ := url_ascii r (List.mem_reverse.mp hr)
    rw [hdrop]
    exact isPrefixOf_textFrom memory hascii (by omega)
  have hfind : (httpResource.map fun r => (r, strncmp memory 4 (bytesOf r.url))).reverse.find?
      (fun url => url.2.1) =
        (httpResource.reverse.find? fun r => httpStrcmp ((textFrom memory 0 n).drop 4) r.url).map
          fun r => (r, strncmp memory 4 (bytesOf r.url)) := by
    rw [← List.map_reverse, List.find?_map]
    congr 1
    refine List.find?_congr fun r hr => ?_
    exact (hurl r hr).symm
  unfold serveRead serve
  rw [hget]
  by_cases hmatch : (strncmp memory 0 (bytesOf "GET /")).1 = true
  · simp only [if_pos hmatch, hfind]
    cases httpResource.reverse.find? fun r =>
      httpStrcmp ((textFrom memory 0 n).drop 4) r.url with
    | none => rfl
    | some r => rfl
  · simp only [if_neg hmatch]

/-! ### The reads -/

/-- The bytes end before they differ from a text. -/
def Cut (data text : List Byte) : Prop := data <+: text ∧ data.length < text.length

instance (data text : List Byte) : Decidable (Cut data text) := inferInstanceAs (Decidable (_ ∧ _))

/-- The segment does not end within what it begins to agree with: neither in the method nor, behind
"GET ", in a URL, nor in the other method. -/
def NotCut (data : List Byte) : Prop :=
  ¬ Cut data (bytesOf "GET /") ∧
    if bytesOf "GET /" <+: data then ∀ r ∈ httpResource, ¬ Cut (data.drop 4) (bytesOf r.url)
    else ¬ Cut data (bytesOf "POST /\r\n")

instance (data : List Byte) : Decidable (NotCut data) := inferInstanceAs (Decidable (_ ∧ _))

lemma cut_cons {c d : Byte} {data text : List Byte} :
    Cut (d :: data) (c :: text) ↔ d = c ∧ Cut data text := by
  rw [Cut, Cut, List.cons_prefix_cons, List.length_cons, List.length_cons, Nat.succ_lt_succ_iff,
    and_assoc]

/-- The bytes of the segment. -/
lemma memoryOf_drop {data rest : List Byte} {s1 : ℕ} {d : Byte} (h : data.drop s1 = d :: rest)
    (behind : ℕ → Byte) :
    s1 < data.length ∧ memoryOf data behind s1 = d ∧ data.drop (s1 + 1) = rest := by
  have hlt : s1 < data.length := by
    by_contra hge
    rw [List.drop_eq_nil_of_le (not_lt.mp hge)] at h
    cases h
  rw [List.drop_eq_getElem_cons hlt] at h
  obtain ⟨hd, hrest⟩ := List.cons.inj h
  refine ⟨hlt, ?_, hrest⟩
  rw [memoryOf, List.getD_eq_getElem _ _ hlt, hd]

/-- **A comparison stays inside the segment** exactly when the segment does not end before it has
come to an end, and then its result does not depend on what stands behind. -/
theorem strncmp_iff (data : List Byte) (behind : ℕ → Byte) (text : List Byte) {s1 : ℕ}
    (hs : s1 ≤ data.length) :
    ((∀ i ∈ (strncmp (memoryOf data behind) s1 text).2, i < data.length) ↔
      ¬ Cut (data.drop s1) text) ∧
      (¬ Cut (data.drop s1) text →
        ((strncmp (memoryOf data behind) s1 text).1 = true ↔ text <+: data.drop s1)) := by
  induction text generalizing s1 with
  | nil => exact ⟨by simp [strncmp, Cut], fun _ => by simp [strncmp]⟩
  | cons c text ih =>
      cases hdrop : data.drop s1 with
      | nil =>
          have hend : ¬ s1 < data.length := not_lt.mpr (List.drop_eq_nil_iff.mp hdrop)
          have hcut : Cut [] (c :: text) := ⟨List.nil_prefix, Nat.succ_pos _⟩
          refine ⟨⟨fun hall => absurd (hall s1 ?_) hend, fun hnot => absurd hcut hnot⟩,
            fun hnot => absurd hcut hnot⟩
          rw [strncmp]
          split_ifs <;> exact List.mem_cons_self
      | cons d rest =>
          obtain ⟨hlt, hread, hrest⟩ := memoryOf_drop hdrop behind
          obtain ⟨hbounds, hresult⟩ := ih hlt
          rw [hrest] at hbounds hresult
          rw [strncmp, hread, cut_cons, List.cons_prefix_cons]
          by_cases hsame : d = c
          · rw [if_pos hsame]
            simp only [hsame, true_and, List.forall_mem_cons, hlt, hbounds]
            exact hresult
          · rw [if_neg hsame]
            simp [hsame, hlt, Ne.symm hsame]

/-- **What is read of a request is exactly then the segment alone** when the segment does not end
within the method or a URL that it begins to agree with; whatever stands behind it. -/
theorem serveRead_iff (data : List Byte) (behind : ℕ → Byte) :
    (∀ i ∈ (serveRead (memoryOf data behind)).2, i < data.length) ↔ NotCut data := by
  obtain ⟨hget, hmatch⟩ := strncmp_iff data behind (bytesOf "GET /") (Nat.zero_le _)
  obtain ⟨hpost, -⟩ := strncmp_iff data behind (bytesOf "POST /\r\n") (Nat.zero_le _)
  rw [List.drop_zero] at hget hmatch hpost
  unfold NotCut
  by_cases hcut : Cut data (bytesOf "GET /")
  · -- the first comparison already leaves the segment
    refine iff_of_false (fun hall => hget.mp (fun i hi => hall i ?_) hcut) fun h => h.1 hcut
    unfold serveRead
    simp only
    split_ifs <;> exact List.mem_append_left _ hi
  · have hinside := hget.mpr hcut
    unfold serveRead
    by_cases hprefix : bytesOf "GET /" <+: data
    · have hlength : 4 ≤ data.length := le_trans (by decide) hprefix.length_le
      have hurl : ∀ r : HttpResource, (∀ i ∈ (strncmp (memoryOf data behind) 4 (bytesOf r.url)).2,
          i < data.length) ↔ ¬ Cut (data.drop 4) (bytesOf r.url) := fun r =>
        (strncmp_iff data behind (bytesOf r.url) hlength).1
      rw [if_pos ((hmatch hcut).mpr hprefix), if_pos hprefix]
      simp only [List.forall_mem_append, List.mem_flatMap, List.mem_map]
      refine ⟨fun hall => ⟨hcut, fun r hr => (hurl r).mp fun i hi => ?_⟩, fun hall =>
        ⟨hinside, ?_⟩⟩
      · exact hall.2 i ⟨_, ⟨r, hr, rfl⟩, hi⟩
      · rintro i ⟨_, ⟨r, hr, rfl⟩, hi⟩
        exact (hurl r).mpr (hall.2 r hr) i hi
    · rw [if_neg fun h => hprefix ((hmatch hcut).mp h), if_neg hprefix]
      simp only [List.forall_mem_append]
      exact and_congr (iff_of_true hinside hcut) hpost

/-- The first bytes of a request, up to the slash of its path, are too few: the URLs are compared
with what stands behind them. -/
theorem not_serveRead_get : ¬ ∀ i ∈ (serveRead (memoryOf (bytesOf "GET /") fun _ => 0)).2,
    i < (bytesOf "GET /").length := by
  decide

end PanelFirmware.Net
