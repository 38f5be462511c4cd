import NonokaIM.Model.FileService

/-! The name of a file in the header of its download. -/

namespace NonokaIM

open PercentEncoding List

end NonokaIM
