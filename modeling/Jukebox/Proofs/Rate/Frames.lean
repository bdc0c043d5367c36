import Jukebox.Rate.Resampler

/-!
Interleaved samples as frames. To map channels is to turn each frame into one of another count of
channels; to encode is to write down every sample, one after the other. So both can be done piece by
piece, wherever the pieces are cut between two frames.
-/

namespace Jukebox

/-- Parts of one length. -/
theorem length_flatMap_same {α β : Type} {f : α → List β} {n : Nat} (h : ∀ x, (f x).length = n)
    (xs : List α) : (xs.flatMap f).length = xs.length * n := by
  rw [List.length_flatMap, List.map_congr_left fun x _ => h x, List.map_const',
    List.sum_replicate_nat]

/-! ### Bytes of samples -/

theorem Bytes.length_ofLittle (count n : Nat) : (Bytes.ofLittle count n).length = count := by
  induction count generalizing n with
  | zero => rfl
  | succ count ih => rw [Bytes.ofLittle, List.length_cons, ih]

theorem ByteOrder.length_write (order : ByteOrder) (count n : Nat) :
    (order.write count n).length = count := by
  cases order with
  | little => exact Bytes.length_ofLittle count n
  | big => rw [ByteOrder.write, Bytes.ofBig, List.length_reverse, Bytes.length_ofLittle]

namespace Format

variable (f : Format)

theorem length_encode (x : Float32) : (f.encode x).length = f.bytesPerSample := by
  rw [encode, bytesPerSample]
  cases f.encoding <;> exact ByteOrder.length_write ..

theorem toList_encodeAll (xs : Array Float32) :
    (f.encodeAll xs).toList = xs.toList.flatMap f.encode := by
  simp [encodeAll, Array.toList_flatMap]

theorem encodeAll_append (xs ys : Array Float32) :
    f.encodeAll (xs ++ ys) = f.encodeAll xs ++ f.encodeAll ys := Array.flatMap_append

theorem size_encodeAll (xs : Array Float32) :
    (f.encodeAll xs).size = xs.size * f.bytesPerSample := by
  rw [← Array.length_toList, toList_encodeAll, length_flatMap_same f.length_encode,
    Array.length_toList]

end Format

namespace Rate

/-! ### Frames -/

/-- The frames in interleaved samples. What is left over after the last whole one is dropped. -/
def rows (channels : Nat) (xs : List Float32) : List (List Float32) :=
  (List.range (xs.length / channels)).map fun i => (xs.drop (i * channels)).take channels

/-- A frame in which each channel is the nearest one that another frame has. -/
def nearest (target : Nat) (row : List Float32) : List Float32 :=
  (List.range target).map fun channel => row.getD (min channel (row.length - 1)) 0.0

/-- A frame with another count of channels: mono is repeated, stereo averaged into mono, and
otherwise a channel is the nearest one there is. -/
def remix (target : Nat) : List Float32 → List Float32
  | [x] => List.replicate target x
  | [x, y] => if target = 1 then [0.5 * (x + y)] else nearest target [x, y]
  | row => nearest target row

variable {source target channels : Nat} {xs ys : List Float32}

theorem length_nearest (row : List Float32) : (nearest target row).length = target := by
  rw [nearest, List.length_map, List.length_range]

theorem length_remix (row : List Float32) : (remix target row).length = target := by
  unfold remix
  split
  · exact List.length_replicate
  · split
    · rename_i h
      exact h.symm
    · exact length_nearest _
  · exact length_nearest _

/-- Of a frame only the channels that it has are read. -/
theorem mapFrame_congr (hpos : 0 < source) {frame frame' : Nat → Float32}
    (h : ∀ channel < source, frame channel = frame' channel) :
    mapFrame source target frame = mapFrame source target frame' := by
  refine List.map_congr_left fun channel _ => ?_
  split
  · rename_i hmono
    rw [h 0 (by omega), h 1 (by omega)]
  · rw [h _ (by omega)]

theorem mapFrame_eq_remix (row : List Float32) :
    mapFrame row.length target (row.getD · 0.0) = remix target row := by
  match row with
  | [] => simp [mapFrame, remix, nearest]
  | [x] => simp [mapFrame, remix, List.map_const']
  | [x, y] =>
    by_cases h : target = 1
    · subst target
      rfl
    · simp [mapFrame, remix, nearest, h]
  | x :: y :: z :: row => simp [mapFrame, remix, nearest]

theorem length_rows (xs : List Float32) : (rows channels xs).length = xs.length / channels := by
  rw [rows, List.length_map, List.length_range]

theorem frame_inside {i length : Nat} (h : i < length / channels) :
    i * channels + channels ≤ length := by
  rw [← Nat.succ_mul]
  exact Nat.le_trans (Nat.mul_le_mul_right _ h) (Nat.div_mul_le_self ..)

/-- Frames of samples that are cut between two frames. -/
theorem rows_append (h : channels ∣ xs.length) :
    rows channels (xs ++ ys) = rows channels xs ++ rows channels ys := by
  rcases Nat.eq_zero_or_pos channels with rfl | hpos
  · simp [rows]
  obtain ⟨count, hcount⟩ := h
  have hsum : (xs ++ ys).length / channels = xs.length / channels + ys.length / channels := by
    rw [List.length_append, hcount, Nat.add_comm, Nat.add_mul_div_left _ _ hpos,
      Nat.mul_div_cancel_left _ hpos, Nat.add_comm]
  rw [rows, hsum, List.range_add, List.map_append, List.map_map]
  congr 1
  · refine List.map_congr_left fun i hi => ?_
    have hend := frame_inside (List.mem_range.1 hi)
    rw [List.drop_append_of_le_length (by omega),
      List.take_append_of_le_length (by rw [List.length_drop]; omega)]
  · refine List.map_congr_left fun i _ => ?_
    have hstart : (xs.length / channels + i) * channels = xs.length + i * channels := by
      rw [Nat.add_mul, Nat.div_mul_cancel ⟨count, hcount⟩]
    rw [Function.comp_apply, hstart, List.drop_length_add_append]

/-- To map channels is to map the channels of each frame. -/
theorem toList_mapChannels (samples : Array Float32) :
    (mapChannels source target samples).toList =
      (rows source samples.toList).flatMap (remix target) := by
  rw [mapChannels]
  split
  · next h =>
    rcases h with rfl | rfl
    · simp [rows]
    · refine (List.flatMap_eq_nil_iff.2 fun row _ => ?_).symm
      exact List.eq_nil_of_length_eq_zero (length_remix row)
  · next h =>
    have hpos : 0 < source := by omega
    have hrow : ∀ i ∈ List.range (samples.size / source),
        mapFrame source target (fun channel => samples.getD (i * source + channel) 0.0) =
          remix target ((samples.toList.drop (i * source)).take source) := by
      intro i hi
      have hend := frame_inside (List.mem_range.1 hi)
      have hlen : ((samples.toList.drop (i * source)).take source).length = source := by
        rw [List.length_take, List.length_drop, Array.length_toList]
        omega
      rw [← mapFrame_eq_remix, hlen]
      refine mapFrame_congr hpos fun channel hchannel => ?_
      rw [List.getD_eq_getElem?_getD, List.getElem?_take_of_lt hchannel, List.getElem?_drop,
        Array.getElem?_toList, Array.getD_eq_getD_getElem?]
    rw [Array.toList_flatMap, Array.toList_range, rows, List.flatMap_map, Array.length_toList,
      List.flatMap_def, List.flatMap_def, List.map_congr_left hrow]

theorem mapChannels_append (xs ys : Array Float32) (h : source ∣ xs.size) :
    mapChannels source target (xs ++ ys) =
      mapChannels source target xs ++ mapChannels source target ys := by
  apply Array.ext'
  rw [Array.toList_append, toList_mapChannels, toList_mapChannels, toList_mapChannels,
    Array.toList_append, rows_append (by rwa [Array.length_toList]), List.flatMap_append]

theorem size_mapChannels (samples : Array Float32) :
    (mapChannels source target samples).size = samples.size / source * target := by
  rw [← Array.length_toList, toList_mapChannels, length_flatMap_same length_remix, length_rows,
    Array.length_toList]

end Rate

end Jukebox
