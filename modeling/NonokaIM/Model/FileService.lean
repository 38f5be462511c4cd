import NonokaIM.Library.PercentEncoding

/-! The headers of the file service. Texts are byte strings. -/

namespace NonokaIM

end NonokaIM
