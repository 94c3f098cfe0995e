/-!
Texts as bytes.  The encoding is UTF-8, and only its shortest forms of scalar values are read back.
-/

namespace Tabulary
namespace Text

def toBytes (s : String) : List UInt8 := s.toUTF8.data.toList

/-- The text with exactly these bytes, if they are well formed. -/
def ofBytes? (bytes : List UInt8) : Option String := String.fromUTF8? ⟨bytes.toArray⟩

@[simp] theorem ofBytes?_toBytes (s : String) : ofBytes? (toBytes s) = some s := by
  have h : (⟨(toBytes s).toArray⟩ : ByteArray) = s.toByteArray := rfl
  unfold ofBytes? String.fromUTF8?
  simp only [h, dif_pos s.isValidUTF8]
  rfl

theorem toBytes_of_ofBytes? {bytes : List UInt8} {s : String} (h : ofBytes? bytes = some s) :
    toBytes s = bytes := by
  unfold ofBytes? String.fromUTF8? at h
  split at h
  · cases h; rfl
  · cases h

end Text
end Tabulary
