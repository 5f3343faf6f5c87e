import MagnetX.Hot.Failures
import MagnetX.Hot.Overlap
import MagnetX.Hot.Controller
import MagnetX.SharedCache
import MagnetX.MovieDetail.Controller
import MagnetX.Decoding
import MagnetX.Paths
import MagnetX.Encoding
import MagnetX.HybridStorage
import MagnetX.HUD
import MagnetX.TextStyle
import MagnetX.MovieDetail.OverView
import MagnetX.MovieDetail.Scroll
import MagnetX.Hot.Cell
import MagnetX.DetailURL
import MagnetX.Lib.Partition
import MagnetX.ColorThief.VBox
import MagnetX.ColorThief.MedianCut
import MagnetX.Lib.Sorting
import MagnetX.ColorThief.Dominant
import MagnetX.ProgressHUD
import MagnetX.MJRefresh
import MagnetX.Request
import MagnetX.LTPageView
import MagnetX.NetworkIndicatorPlugin
import MagnetX.Kingfisher.Callbacks
import MagnetX.Kingfisher.Posters
