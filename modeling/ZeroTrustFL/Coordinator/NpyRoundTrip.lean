import Mathlib
import ZeroTrustFL.Lib.FloatRound
import ZeroTrustFL.Coordinator.Recovery
import ZeroTrustFL.Coordinator.Schema

/-!
# Payloads from round to round

What `encodeNPYFloat32` writes: a region of a multiple of 16 bytes and the bits of the values.
Decoding it gives the same bits back, so the model that closes a round can be read in the next one.
-/

namespace ZeroTrustFL

/-- The padding aligns the region. -/
theorem length_npyRegion_mod (n : ℕ) : (npyRegion n).length % 16 = 0 := by
  have hlength : (npyRegion n).length =
      10 + ((npyHeaderText n).length + (npyPadding (npyHeaderText n).length + 1)) := by
    simp only [npyRegion, npyHeader, npyMagic, List.length_append, List.length_cons,
      List.length_nil, List.length_map, List.length_replicate, length_toLittleEndian]
    omega
  rw [hlength]
  generalize (npyHeaderText n).length = k
  simp only [npyPadding]
  split_ifs <;> omega

theorem FiniteBits.isNonFinite_ofBits {b : UInt32} (h : FiniteBits b) :
    isNonFinite (Float32.ofBits b) = false := by
  rw [isNonFinite, isNaN_or_isInf, isFinite_float64, h.isFinite_ofBits]
  rfl

theorem toBits_map_ofBits {bits : List UInt32} (hfinite : ∀ b ∈ bits, FiniteBits b) :
    (bits.map Float32.ofBits).map Float32.toBits = bits := by
  rw [List.map_map]
  conv_rhs => rw [← List.map_id bits]
  exact List.map_congr_left fun b hb => (hfinite b hb).toBits_ofBits

theorem manifestForPayload_of_decode {payload : Bytes} {values : List Float32}
    (h : decodeNPYFloat32 payload = .ok values) :
    manifestForPayload payload = .ok (manifestForElementCount (UInt64.ofNat values.length)) := by
  have hne : values.length ≠ 0 := by simpa using (decodeNPYFloat32_ok h).1
  simp only [manifestForPayload, h, if_neg hne]

namespace Service

/-- The next round reads the model and its schema. -/
structure Readable (model : GlobalModel) (n : ℕ) : Prop where
  vector : ∃ values, currentModelVector model n = .ok values
  manifest : manifestForPayload model.weightsPayload =
    .ok (manifestForElementCount (UInt64.ofNat n))

theorem readable_nextModel {s : Service} {updates : OrdMap String PendingUpdate} {order : IterOrder}
    {n : ℕ} {currentValues aggregated values : List Float32} {payload : Bytes} (hn : n * 4 < 2 ^ 63)
    (hcurrent : currentModelVector s.model n = .ok currentValues)
    (hcloses : Closes s.settings updates order currentValues aggregated values payload) (now : ℤ) :
    Readable (nextModel s.model payload now) n := by
  have hnext := currentModelVector_nextModel hn hcurrent hcloses now
  obtain ⟨hn0, rfl⟩ := length_currentModelVector hcurrent
  obtain ⟨-, hlength, -, hdecode⟩ := hcloses.payload hn0 hn
  refine ⟨⟨_, hnext⟩, ?_⟩
  rw [← hlength]
  exact manifestForPayload_of_decode hdecode

/-- A call that changes the model is a submission, and the model it leaves can be read. -/
theorem readable_serve {s : Service} {c : Call} (hmodel : (s.serve c).2.model ≠ s.model) :
    ∃ u, s.Submits c u ∧ Readable (s.serve c).2.model u.values.length := by
  obtain ⟨p, hout, hprepared⟩ := s.serve_completed c
  generalize hserve : s.serve c = result at hmodel hout hprepared
  cases hout with
  | failed same => exact absurd same.model hmodel
  | rejected same => exact absurd same.model hmodel
  | read => exact absurd rfl hmodel
  | registered => exact absurd rfl hmodel
  | refreshed => exact absurd rfl hmodel
  | waiting => exact absurd (s.sameRound_afterChecks _ _).model hmodel
  | closing passes _ closes =>
    obtain ⟨request, prepare⟩ := hprepared rfl
    have hdecode := (prepareUpdate_ok prepare).decode
    exact ⟨_, (passes.accepts prepare).submits request hserve,
      readable_nextModel (decodeNPYFloat32_ok hdecode).2.1 passes.admits.current closes _⟩
  | rotated same => exact absurd same.model hmodel
  | revoked same => exact absurd same.model hmodel

end Service

/-- Encoding finite bit patterns succeeds, aligns the header, and decoding gives the patterns back.
So the model that a call leaves in place of another one is accepted in the next round. -/
theorem payload_roundTrip :
    (∀ bits : List UInt32, bits ≠ [] → (∀ b ∈ bits, FiniteBits b) → bits.length * 4 < 2 ^ 63 →
      ∃ body values, encodeNPYFloat32 (bits.map Float32.ofBits) =
      .ok (npyRegion bits.length ++ body) ∧
        (npyRegion bits.length).length % 16 = 0 ∧
        decodeNPYFloat32 (npyRegion bits.length ++ body) = .ok values ∧
          values.map Float32.toBits = bits) ∧
    ∀ (s : Service) (c : Call), (s.serve c).2.model ≠ s.model →
      ∃ u, s.Submits c u ∧ Service.Readable (s.serve c).2.model u.values.length := by
  refine ⟨fun bits hne hfinite hsize => ?_, fun s c hmodel => Service.readable_serve hmodel⟩
  have hmap : bits.map Float32.ofBits ≠ [] := by simpa using hne
  have hvalues : ∀ v ∈ bits.map Float32.ofBits, isNonFinite v = false := by
    intro v hv
    obtain ⟨b, hb, rfl⟩ := List.mem_map.1 hv
    exact (hfinite b hb).isNonFinite_ofBits
  have hlength : (bits.map Float32.ofBits).length * 4 < 2 ^ 63 := by rwa [List.length_map]
  have hencode := encodeNPYFloat32_eq hmap hvalues hlength
  obtain ⟨payload, hpayload, -, hdecode⟩ := decodeNPYFloat32_encodeNPYFloat32 hmap hvalues hlength
  cases hpayload.symm.trans hencode
  rw [List.length_map] at hencode hdecode
  exact ⟨_, _, hencode, length_npyRegion_mod _, hdecode, toBits_map_ofBits hfinite⟩

/-- The zeros, the smallest subnormal number and one. -/
def sampleBits : List UInt32 := [0, 0x80000000, 1, 0x3f800000]

theorem payload_roundTrip_sampleBits :
    (∃ body values, encodeNPYFloat32 (sampleBits.map Float32.ofBits) =
        .ok (npyRegion sampleBits.length ++ body) ∧ (npyRegion sampleBits.length).length % 16 = 0 ∧
      decodeNPYFloat32 (npyRegion sampleBits.length ++ body) = .ok values ∧
      values.map Float32.toBits = sampleBits) ∧
    ∃ u,
    (final Service.serve Service.sampleService [Service.sampleRegistration "worker-1" 0 7]).Submits
        (Service.sampleSubmission "worker-1" 1 7 [1]) u ∧
      Service.Readable ((final Service.serve Service.sampleService
        [Service.sampleRegistration "worker-1" 0 7]).serve
          (Service.sampleSubmission "worker-1" 1 7 [1])).2.model u.values.length := by
  have hfinite : ∀ b ∈ sampleBits, FiniteBits b := by simp [sampleBits, FiniteBits]
  refine ⟨payload_roundTrip.1 sampleBits (by decide) hfinite (by simp [sampleBits]), ?_⟩
  exact payload_roundTrip.2 (final Service.serve Service.sampleService
    [Service.sampleRegistration "worker-1" 0 7]) (Service.sampleSubmission "worker-1" 1 7 [1])
    (by decide +kernel)

end ZeroTrustFL
